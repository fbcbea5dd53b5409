import OrderMesh.Library.Transition
import OrderMesh.Platform.Refinement

namespace OrderMesh.Platform

open Orders (OrderStatus statusOf)
open Inventory (Call Phase)
open Shipping (Shipment shipmentsOf)

/-- The work has committed what another service waits to hear of. -/
def Work.announces : Work → Bool
  | .requested p => queues.any fun q => p.eventType ∈ q.handlers
  | .running _ _ (.announcing _) => true
  | _ => false

/-- No work fails between its commit and its publication. -/
def Announced (d : State) : Label → Prop
  | .work i .fail => ∀ w ∈ d.flight[i]?, w.announces = false
  | _ => True

instance (d : State) (a : Label) : Decidable (Announced d a) := by
  unfold Announced
  split <;> infer_instance

theorem linesAt_writeStatus (orders : SerialTable Orders.Order) (id : Int) (status : OrderStatus)
    (o : Int) : linesAt (Orders.writeStatus orders id status) o = linesAt orders o := by
  unfold linesAt Orders.writeStatus
  rw [SerialTable.get?_modify]
  by_cases ho : o = id
  · rw [if_pos ho]
    cases orders.get? o <;> rfl
  · rw [if_neg ho]

theorem linesAt_insert (orders : SerialTable Orders.Order) (order : Orders.Order) (o : Int) :
    linesAt (orders.insert order) o =
      if o = orders.next then Inventory.reservationRows o (Inventory.wantedOf (linesOf order))
      else linesAt orders o := by
  unfold linesAt
  rw [SerialTable.get?_insert]
  by_cases ho : o = orders.next
  · rw [if_pos ho, if_pos ho]
  · rw [if_neg ho, if_neg ho]

theorem Known.status {orders : SerialTable Orders.Order} {p : Payload} (h : Known orders p) :
    ∃ status, statusOf orders p.orderId = some status := by
  obtain ⟨order, hget, -⟩ := h
  exact ⟨order.status, by rw [statusOf, hget]; rfl⟩

theorem sameTables_writeStatus (d : State) (flight : List Work) (status : OrderStatus) {id o : Int}
    (ho : id ≠ o) :
    SameTables d { d with
      orders := Orders.writeStatus d.orders id status
      flight := flight } o := by
  refine ⟨?_, linesAt_writeStatus .., rfl, rfl⟩
  rw [Orders.statusOf_writeStatus, if_neg (Ne.symm ho)]

section Advance

variable {d : State} {i : Nat} {w : Work} {l : Letter}

/-- A transaction of the inventory service takes a step. -/
theorem stock_saga {c : Call} {phase phase' : Phase} {m : Inventory.Move} {s : Inventory.Store}
    (hw : d.flight[i]? = some w)
    (howes : ∀ q t o, w.owes q t o = (Queue.inventory = q && about t o l.payload))
    (hknown : Known d.orders l.payload) (hc : call l.payload = some c)
    (hmoved : Inventory.Moved d.stock c phase m phase' s)
    (hreads : ∀ id c', l.payload = .orderCancelled id c' → phase ≠ .ready →
      d.Releasing id ∧ Reads d.stock id (readRows phase)) (o : Int) :
    Saga.Step (d.Releasing o) (d.saga o)
      (({ d with stock := s, flight := Pool.replace d.flight i (afterStock l phase') } : State).saga
        o) := by
  by_cases ho : l.payload.orderId = o
  · cases hl : l.payload with
    | orderCreated id customerId total items =>
      rw [hl] at hc ho
      cases hc
      cases ho
      exact orderCreated_saga hw howes hl hknown hmoved rfl rfl rfl
    | orderCancelled id customerId =>
      rw [hl] at hc ho
      cases hc
      cases ho
      exact orderCancelled_saga hw howes hl hmoved (hreads id customerId hl) rfl rfl rfl
    | _ =>
      rw [hl] at hc
      cases hc
  · have hread : ∀ id, c = .releaseForOrder id → phase ≠ .ready →
        Reads d.stock id (readRows phase) := by
      intro id heq hphase
      cases hl : l.payload with
      | orderCancelled id' customerId =>
        rw [hl, heq] at hc
        cases hc
        exact (hreads id customerId hl hphase).2
      | _ =>
        rw [hl, heq] at hc
        cases hc
    have hrows := moved_reservationsOf_other hc hmoved hread ho
    refine idle_saga hw rfl ⟨rfl, rfl, congrArg _ hrows, rfl⟩ fun q t => ?_
    rw [countP_afterStock_other ho, howes, about_of_ne ho]
    simp

/-- The step before the answer of `set_status`. -/
theorem readOrder_saga (hw : d.flight[i]? = some (.queued .order l))
    (hbound : l.payload.eventType ∈ Queue.order.handlers) (hknown : Known d.orders l.payload)
    (o : Int) : Saga.Step (d.Releasing o) (d.saga o)
      (({ d with flight := Pool.replace d.flight i (readOrder d l) } : State).saga o) := by
  have hidle : (∀ q t, (readOrder d l).countP (Work.owes q t o) =
      if (Work.queued .order l).owes q t o then 1 else 0) → Saga.Step (d.Releasing o) (d.saga o)
        (({ d with flight := Pool.replace d.flight i (readOrder d l) } : State).saga o) :=
    idle_saga hw rfl (.refl d _ o)
  obtain ⟨order, hget, -⟩ := hknown
  obtain ⟨status, htarget⟩ : ∃ status, target l.payload = some status := by
    cases hl : l.payload <;> simp [hl, Queue.handlers, Payload.eventType, target] at hbound ⊢
  by_cases hs : order.status = status
  · have hread : readOrder d l = [] := by simp [readOrder, htarget, hget, hs]
    rw [hread] at hidle ⊢
    by_cases ho : l.payload.orderId = o
    · subst ho
      refine status_saga hw (fun _ _ _ => rfl) htarget rfl ?_ rfl rfl rfl
      rw [statusOf, hget, ← hs]
      rfl
    · exact hidle fun q t => by simp [ho]
  · have hread : readOrder d l = [.running .order l (.setting status)] := by
      simp [readOrder, htarget, hget, hs]
    rw [hread] at hidle ⊢
    exact hidle fun q t => by simp [List.countP_singleton]

/-- The lookup of `create_shipment`. -/
theorem readShipment_saga (hw : d.flight[i]? = some (.queued .shipping l))
    (hbound : l.payload.eventType ∈ Queue.shipping.handlers) (o : Int) :
    Saga.Step (d.Releasing o) (d.saga o)
      (({ d with flight := Pool.replace d.flight i (readShipment d l) } : State).saga o) := by
  have hidle : (∀ q t, (readShipment d l).countP (Work.owes q t o) =
      if (Work.queued .shipping l).owes q t o then 1 else 0) → Saga.Step (d.Releasing o) (d.saga o)
        (({ d with flight := Pool.replace d.flight i (readShipment d l) } : State).saga o) :=
    idle_saga hw rfl (.refl d _ o)
  have htype : l.payload.eventType = .stockReserved := by simpa [Queue.handlers] using hbound
  obtain ⟨items, hl⟩ : ∃ items, l.payload = .stockReserved l.payload.orderId items := by
    cases hl : l.payload <;> rw [hl] at htype <;> cases htype
    exact ⟨_, rfl⟩
  cases hfound : Shipping.existing d.shipments l.payload.orderId with
  | none =>
    have hread : readShipment d l = [.running .shipping l .unshipped] := by
      unfold readShipment
      rw [hl]
      simp [hfound]
    rw [hread] at hidle ⊢
    exact hidle fun q t => by simp [List.countP_singleton]
  | some shipment =>
    have hread : readShipment d l =
        [.running .shipping l (.announcing (Shipping.shipmentCreated shipment))] := by
      unfold readShipment
      rw [hl]
      simp [hfound]
    obtain ⟨hid, hpos⟩ := Shipping.existing_eq_some hfound
    rw [hread] at hidle ⊢
    by_cases ho : l.payload.orderId = o
    · subst ho
      refine dispatched_saga hw (fun _ _ _ => rfl) htype rfl (fun q t => ?_) rfl rfl
        (.inl ⟨rfl, hpos⟩)
      simp [List.countP_singleton, due_shipmentCreated, hid]
    · exact hidle fun q t => by simp [due_shipmentCreated, hid, ho]

/-- An insert that the unique indexes let through. -/
theorem insertShipment_saga {courier : String} {year : Nat} {shipment : Int × Shipment}
    {shipments : Shipping.Shipments} (hw : d.flight[i]? = some (.running .shipping l .unshipped))
    (hbound : l.payload.eventType ∈ Queue.shipping.handlers)
    (hinsert : Shipping.insertShipment d.shipments l.payload.orderId courier year =
      some (shipment, shipments)) (o : Int) :
    Saga.Step (d.Releasing o) (d.saga o)
      (({ d with
        shipments := shipments
        flight :=
          Pool.replace d.flight i [.running .shipping l (.inserted shipment)] } : State).saga
        o) := by
  obtain ⟨hnone, hid, -, rfl⟩ := Shipping.insertShipment_eq_some hinsert
  have htype : l.payload.eventType = .stockReserved := by simpa [Queue.handlers] using hbound
  by_cases ho : l.payload.orderId = o
  · subst ho
    refine dispatched_saga hw (fun _ _ _ => rfl) htype rfl (fun q t => ?_) rfl rfl
      (.inr ⟨by rw [hnone]; rfl, ?_⟩)
    · simp [List.countP_singleton, due_shipmentCreated, hid]
    · change (shipmentsOf (d.shipments.insert shipment.2) l.payload.orderId).length = 1
      rw [Shipping.shipmentsOf_insert, hnone, if_pos hid]
      rfl
  · have hlength : (shipmentsOf (d.shipments.insert shipment.2) o).length =
        (shipmentsOf d.shipments o).length := by
      rw [Shipping.shipmentsOf_insert, if_neg (hid ▸ ho), List.append_nil]
    refine idle_saga hw rfl ⟨rfl, rfl, rfl, hlength⟩ fun q t => ?_
    simp [due_shipmentCreated, hid, ho]

/-- The handler fails after the shipment is committed. -/
theorem insertedFailed_saga {d' : State} {releasing : Prop} {shipment : Int × Shipment}
    (hw : d.flight[i]? = some (.running .shipping l (.inserted shipment)))
    (hbound : l.payload.eventType ∈ Queue.shipping.handlers)
    (hid : shipment.2.orderId = l.payload.orderId)
    (hflight : d'.flight = Pool.replace d.flight i [failed .shipping l])
    (horders : d'.orders = d.orders) (hstock : d'.stock = d.stock)
    (hshipments : d'.shipments = d.shipments) (o : Int) :
    Saga.Step releasing (d.saga o) (d'.saga o) := by
  have htables : SameTables d d' o := .of_eq horders hstock hshipments o
  have htype : l.payload.eventType = .stockReserved := by simpa [Queue.handlers] using hbound
  unfold failed at hflight
  by_cases ho : l.payload.orderId = o
  · subst ho
    obtain ⟨n, hn⟩ : ∃ n, d.owed .order .shipmentCreated l.payload.orderId = n + 1 := by
      refine Nat.exists_eq_add_one.mpr (owed_pos hw ?_)
      simp [due_shipmentCreated, hid]
    have hcount := counts_replace hw hflight l.payload.orderId
    simp only [owes_inserted, due_shipmentCreated, hid] at hcount
    obtain ⟨hstatus, hlines, hrows, hships⟩ := htables
    by_cases hlimit : l.retry + 1 ≥ maxRetries
    · rw [if_pos hlimit] at hcount
      simp [about, htype] at hcount
      refine (Saga.Step.unannounced 0 hn).of_eq ?_
      refine Saga.ext hstatus hlines hrows hships ?_ ?_ ?_ ?_ ?_ ?_ <;>
        simp only [State.saga] <;> omega
    · rw [if_neg hlimit] at hcount
      simp [due, about, htype, Queue.handlers] at hcount
      refine (Saga.Step.unannounced 1 hn).of_eq ?_
      refine Saga.ext hstatus hlines hrows hships ?_ ?_ ?_ ?_ ?_ ?_ <;>
        simp only [State.saga] <;> omega
  · refine idle_saga hw hflight htables fun q t => ?_
    split_ifs <;> simp_all [due_shipmentCreated]

/-- The cancel route commits and is about to publish. -/
theorem cancelled_saga {d' : State} {releasing : Prop} {id : Int} {order : Orders.Order}
    (hw : d.flight[i]? = some (.cancelling id order)) (hsound : ∃ row, d.orders.get? id = some row)
    (hflight : d'.flight = Pool.replace d.flight i [.requested (Orders.orderCancelled id order)])
    (horders : d'.orders = Orders.writeStatus d.orders id .cancelled) (hstock : d'.stock = d.stock)
    (hshipments : d'.shipments = d.shipments) (o : Int) :
    Saga.Step releasing (d.saga o) (d'.saga o) := by
  have hlines : linesAt d'.orders o = linesAt d.orders o := by rw [horders, linesAt_writeStatus]
  have hrows : (d'.saga o).rows = (d.saga o).rows := by simp only [State.saga, hstock]
  have hships : (d'.saga o).shipments = (d.saga o).shipments := by
    simp only [State.saga, hshipments]
  have hstatus : statusOf d'.orders o =
      if o = id then (statusOf d.orders o).map fun _ => .cancelled else statusOf d.orders o := by
    rw [horders, Orders.statusOf_writeStatus]
  by_cases ho : o = id
  · subst ho
    obtain ⟨row, hget⟩ := hsound
    have hold : statusOf d.orders o = some row.status := by rw [statusOf, hget]; rfl
    have hsome : (d.saga o).status ≠ none := by simp [State.saga, hold]
    have hcount := counts_replace hw hflight o
    simp [Orders.orderCancelled, due, about, Queue.handlers, Payload.eventType,
      Payload.orderId] at hcount
    refine (Saga.Step.cancelled hsome).of_eq ?_
    refine Saga.ext ?_ hlines hrows hships ?_ ?_ ?_ ?_ ?_ ?_
    · simp [State.saga, hstatus, hold]
    all_goals simp only [State.saga]; omega
  · rw [if_neg ho] at hstatus
    refine idle_saga hw hflight ⟨hstatus, hlines, hrows, hships⟩ fun q t => ?_
    have hne : (Orders.orderCancelled id order).orderId ≠ o := Ne.symm ho
    simp [hne]

/-- Every step of a piece of work is a step of the saga of each order. -/
theorem advanced_saga {m : Move} {e : State} {new : List Work} (hsound : w.Sound d)
    (hw : d.flight[i]? = some w) (hannounced : m = .fail → w.announces = false)
    (h : Advanced d w m e new) (o : Int) :
    Saga.Step (d.Releasing o) (d.saga o)
      (({ e with flight := Pool.replace d.flight i new } : State).saga o) := by
  cases h with
  | cancelled => apply cancelled_saga hw hsound <;> rfl
  | cancelFailed => exact idle_saga hw rfl (.refl d _ o) fun q t => rfl
  | requested => exact idle_saga hw rfl (.refl d _ o) fun q t => countP_exchange ..
  | @requestFailed p =>
    have hunbound : ∀ q : Queue, p.eventType ∉ q.handlers := by
      have hany := hannounced rfl
      intro q hq
      cases q <;> simp [Work.announces, queues, hq] at hany
    refine idle_saga hw rfl (.refl d _ o) fun q t => ?_
    rw [owes_requested, due_of_unbound hunbound]
    rfl
  | republished => exact idle_saga hw rfl (.refl d _ o) fun q t => countP_exchange ..
  | orderRead => exact readOrder_saga hw hsound.1 hsound.2 o
  | shipmentRead => exact readShipment_saga hw hsound.1 o
  | @unhandled l hnone =>
    have hbound := hsound.1
    cases hl : l.payload <;> simp [hl, call, Queue.handlers, Payload.eventType] at hnone hbound
  | stockRead hc hmoved =>
    refine stock_saga hw (fun _ _ _ => rfl) hsound.2 hc hmoved ?_ o
    intro id c' _ hready
    exact absurd rfl hready
  | queuedFailed => apply failed_saga hw (fun _ _ _ => rfl) hsound.1 <;> rfl
  | @statusSet l status =>
    by_cases ho : l.payload.orderId = o
    · subst ho
      refine status_saga hw (fun _ _ _ => rfl) hsound.2 rfl ?_ (linesAt_writeStatus ..) rfl rfl
      obtain ⟨old, hold⟩ := hsound.1.2.status
      rw [Orders.statusOf_writeStatus, if_pos rfl, hold]
      rfl
    · refine idle_saga hw rfl (sameTables_writeStatus d _ _ ho) fun q t => ?_
      simp [ho]
  | @stockMoved l c m phase phase' s hc hmoved =>
    refine stock_saga hw (fun _ _ _ => rfl) hsound.1.2 hc hmoved ?_ o
    intro id customerId hl _
    refine ⟨⟨customerId, l.retry, phase, ?_⟩, (hsound.2 id customerId hl).1⟩
    rw [← hl]
    exact List.mem_of_getElem? hw
  | shipped hinsert => exact insertShipment_saga hw hsound.1.1 hinsert o
  | shipRefused => apply failed_saga hw (fun _ _ _ => rfl) hsound.1.1 <;> rfl
  | refreshed => exact idle_saga hw rfl (.refl d _ o) fun q t => List.countP_singleton ..
  | announced => exact idle_saga hw rfl (.refl d _ o) fun q t => countP_exchange ..
  | @runningFailed q l stage =>
    cases stage with
    | announcing p => exact absurd (hannounced rfl) (by simp [Work.announces])
    | inserted shipment =>
      obtain ⟨⟨hbound, -⟩, rfl, hid⟩ := hsound
      apply insertedFailed_saga hw hbound hid <;> rfl
    | _ => apply failed_saga hw (fun _ _ _ => rfl) hsound.1.1 <;> rfl

end Advance

theorem owed_append {d d' : State} {new : List Work} (hflight : d'.flight = d.flight ++ new)
    (q : Queue) (t : EventType) (o : Int) :
    d'.owed q t o = d.owed q t o + new.countP (Work.owes q t o) := by
  unfold State.owed
  rw [hflight, List.countP_append]

theorem statusOf_next (orders : SerialTable Orders.Order) : statusOf orders orders.next = none := by
  rw [statusOf, orders.get?_next]
  rfl

theorem unbound_shipmentDelivered (shipment : Shipment) (q : Queue) :
    (Shipping.shipmentDelivered shipment).eventType ∉ q.handlers := by
  cases q <;> simp [Shipping.shipmentDelivered, Payload.eventType, Queue.handlers]

/-- A new order starts its saga; the sagas of the others do not notice. -/
theorem createOrder_saga {releasing : Prop} {d d' : State} {customerId : Int}
    {payload : Orders.OrderCreate} {order : Orders.Order}
    (hnew : Orders.newOrder customerId payload = some order)
    (hflight : d'.flight = d.flight ++ [.requested (Orders.orderCreated d.orders.next order)])
    (horders : d'.orders = d.orders.insert order) (hstock : d'.stock = d.stock)
    (hshipments : d'.shipments = d.shipments) (o : Int) :
    Saga.Step releasing (d.saga o) (d'.saga o) := by
  obtain ⟨hpending, hitems⟩ := Orders.newOrder_eq_some hnew
  have hcount := owed_append hflight
  have hrows : (d'.saga o).rows = (d.saga o).rows := by simp only [State.saga, hstock]
  have hships : (d'.saga o).shipments = (d.saga o).shipments := by
    simp only [State.saga, hshipments]
  by_cases ho : o = d.orders.next
  · have hnone : (d.saga o).status = none := by simp only [State.saga, ho, statusOf_next]
    have hlines : Inventory.reservationRows o (Inventory.wantedOf (linesOf order)) ≠ [] :=
      Inventory.reservationRows_ne_nil _ fun hnil => hitems (List.map_eq_nil_iff.mp hnil)
    refine (Saga.Step.created hnone hlines).of_eq ?_
    refine Saga.ext ?_ ?_ hrows hships ?_ ?_ ?_ ?_ ?_ ?_
    · simp [State.saga, horders, Orders.statusOf_insert, ho, hpending]
    · simp [State.saga, horders, linesAt_insert, ho]
    all_goals
      simp only [State.saga, hcount]
      simp [Orders.orderCreated, due, about, Queue.handlers, Payload.eventType, Payload.orderId, ho]
  · have hstatus : statusOf d'.orders o = statusOf d.orders o := by
      rw [horders, Orders.statusOf_insert, if_neg ho]
    have hlines : linesAt d'.orders o = linesAt d.orders o := by
      rw [horders, linesAt_insert, if_neg ho]
    have hne : (Orders.orderCreated d.orders.next order).orderId ≠ o := Ne.symm ho
    rw [saga_same ⟨hstatus, hlines, hrows, hships⟩ fun q t => by simp [hcount, hne]]
    exact .idle

/-- A step of the platform is a step of the saga of every order. -/
theorem step_saga {d d' : State} {a : Label} (hsound : d.Sound) (hannounced : Announced d a)
    (h : step d a = some d') (o : Int) :
    Saga.Step (d.Releasing o) (d.saga o) (d'.saga o) := by
  cases step_stepped h with
  | refused => exact .idle
  | created hnew => apply createOrder_saga hnew <;> rfl
  | @loaded caller id order hload =>
    rw [saga_same (.refl d (d.flight ++ [Work.cancelling id order]) o) fun q t => ?_]
    · exact .idle
    · rw [owed_append rfl]
      rfl
  | @productCreated id payload product s hcreate =>
    obtain ⟨-, -, -, hs⟩ := Inventory.createProduct_eq_some hcreate
    have hsame : SameTables d { d with stock := s } o := by
      rw [hs]
      exact ⟨rfl, rfl, rfl, rfl⟩
    rw [saga_same hsame fun q t => rfl]
    exact .idle
  | @shipmentUpdated id status shipment hget =>
    have hsame : ∀ flight, SameTables d { d with
        shipments := Shipping.updateStatus d.shipments id status
        flight := flight } o :=
      fun _ => ⟨rfl, rfl, rfl, Shipping.length_shipmentsOf_updateStatus ..⟩
    rw [saga_same (hsame _) fun q t => ?_]
    · exact .idle
    · rw [owed_append rfl]
      split_ifs
      · simp [due_of_unbound (unbound_shipmentDelivered shipment)]
      · rfl
  | @worked i m w e new hw hadvanced =>
    refine advanced_saga (hsound w (List.mem_of_getElem? hw)) hw ?_ hadvanced o
    rintro rfl
    exact hannounced w (by rw [hw]; rfl)

end OrderMesh.Platform
