import OrderMesh.Platform.Invariant

namespace OrderMesh.Platform

open Orders (OrderStatus statusOf)
open Inventory (Call InventoryReservation Phase demand)
open Shipping (Shipment Shipments shipmentsOf)
open Transition

/-- The services, and every message the exchange was given. -/
structure Network where
  services : State
  sent : List Letter

def Network.empty : Network := ⟨.empty, []⟩

/-- What a piece of work hands to the exchange when it goes on. -/
def Work.sends : Work → Option Letter
  | .requested p => some ⟨p, 0⟩
  | .running _ _ (.announcing p) => some ⟨p, 0⟩
  | .backoff l => some l
  | _ => none

def State.sends (d : State) : Label → List Letter
  | .work i .go => (d.flight[i]?.bind Work.sends).toList
  | _ => []

def State.deliver (d : State) (new : List Work) : State := { d with flight := d.flight ++ new }

/-- Beyond the platform's own steps the exchange takes a message whose sender sees a failure, a
message comes again, another service publishes it again, and work is lost in a crash. -/
inductive NetworkAct
  | act (a : Label)
  | taken (i : Nat)
  | redeliver (q : Queue) (l : Letter)
  | retried (l : Letter)
  | lost (i : Nat)

def networkStep (n : Network) : NetworkAct → Option Network
  | .act a => (step n.services a).map fun d => ⟨d, n.sent ++ n.services.sends a⟩
  | .taken i =>
      match n.services.flight[i]?.bind Work.sends with
      | none => none
      | some l => some ⟨n.services.deliver (exchange l), n.sent ++ [l]⟩
  | .redeliver q l =>
      if l ∈ n.sent ∧ l.payload.eventType ∈ q.handlers then
        some { n with services := n.services.deliver [.queued q l] }
      else none
  | .retried l =>
      if l ∈ n.sent ∧ l.retry + 1 < maxRetries then
        let copy : Letter := { l with retry := l.retry + 1 }
        some ⟨n.services.deliver (exchange copy), n.sent ++ [copy]⟩
      else none
  | .lost i =>
      some { n with services :=
        { n.services with flight := Pool.replace n.services.flight i [] } }

/-- The events a piece of work handles or is about to publish. -/
def Work.payloads : Work → List Payload
  | .cancelling .. => []
  | .requested p => [p]
  | .backoff l => [l.payload]
  | .queued _ l => [l.payload]
  | .dead _ l => [l.payload]
  | .running _ l (.announcing p) => [l.payload, p]
  | .running _ l (.inserted shipment) => [l.payload, Shipping.shipmentCreated shipment]
  | .running _ l _ => [l.payload]

/-- Inventory has committed rows of the order for every product of the items. -/
def State.HasRows (d : State) (o : Int) (items : List Item) : Prop :=
  ∀ item ∈ items, ∃ row ∈ d.stock.reservationsOf o, row.2.productId = item.productId

/-- At some moment of the run, before the order had a shipment, it had all its rows. -/
def ReservedBefore (acts : List NetworkAct) (o : Int) (items : List Item) : Prop :=
  ∃ pre post n, acts = pre ++ post ∧ exec networkStep .empty pre = some n ∧
    shipmentsOf n.services.shipments o = [] ∧ n.services.HasRows o items

/-- `set_status` is about to look for an order that is not there. -/
def TakesUnknownBranch (d : State) (a : Label) : Prop :=
  ∃ i l, a = .work i .go ∧ d.flight[i]? = some (.queued .order l) ∧ target l.payload ≠ none ∧
    d.orders.get? l.payload.orderId = none

structure Network.Integrity (acts : List NetworkAct) (n : Network) : Prop where
  named : ∀ w ∈ n.services.flight, ∀ p ∈ w.payloads, n.services.orders.get? p.orderId ≠ none
  sent : ∀ l ∈ n.sent, n.services.orders.get? l.payload.orderId ≠ none
  rows : ∀ row ∈ n.services.stock.reservations.rows,
    ∃ order, n.services.orders.get? row.2.orderId = some order ∧
      row.2.quantity = demand (linesOf order) row.2.productId
  shipments : ∀ row ∈ n.services.shipments.rows,
    ∃ order, n.services.orders.get? row.2.orderId = some order ∧
      ReservedBefore acts row.2.orderId (linesOf order)
  shipped : ∀ id order, n.services.orders.get? id = some order → order.status = .shipped →
    ∃ row ∈ n.services.shipments.rows, row.2.orderId = id
  unknown : ∀ a, ¬ TakesUnknownBranch n.services a

/-- The order is as it was placed, but for its status. -/
def SameOrders (orders orders' : SerialTable Orders.Order) : Prop :=
  ∀ id order, orders.get? id = some order →
    ∃ status, orders'.get? id = some (order.withStatus status)

/-- The fields that the payload copies from its order. -/
def Copies (order : Orders.Order) : Payload → Prop
  | .orderCreated _ customerId _ items => customerId = order.customerId ∧ items = linesOf order
  | .orderCancelled _ customerId => customerId = order.customerId
  | _ => True

section Evidence

variable (past : Int → List Item → Prop)

def Evidence (orders : SerialTable Orders.Order) (o : Int) : Prop :=
  ∃ order, orders.get? o = some order ∧ past o (linesOf order)

structure Grounded (d : State) (p : Payload) : Prop where
  order : ∃ order, d.orders.get? p.orderId = some order ∧ Copies order p
  reserved : p.eventType = .stockReserved → Evidence past d.orders p.orderId
  shipment : p.eventType = .shipmentCreated → shipmentsOf d.shipments p.orderId ≠ []

def Stage.Grounded (d : State) (l : Letter) : Stage → Prop
  | .setting status => target l.payload = some status
  | .stock _ => True
  | .unshipped => l.payload.eventType = .stockReserved
  | .inserted shipment => Platform.Grounded past d (Shipping.shipmentCreated shipment)
  | .announcing p => Platform.Grounded past d p

def Work.Grounded (d : State) : Work → Prop
  | .cancelling id order => ∃ row, d.orders.get? id = some row ∧ row.customerId = order.customerId
  | .requested p => Platform.Grounded past d p
  | .backoff l => Platform.Grounded past d l.payload
  | .queued _ l => Platform.Grounded past d l.payload
  | .dead _ l => Platform.Grounded past d l.payload
  | .running _ l stage => Platform.Grounded past d l.payload ∧ stage.Grounded past d l

/-- The tables of the services bear each other out. -/
structure State.Founded (d : State) : Prop where
  flight : ∀ w ∈ d.flight, w.Grounded past d
  rows : ∀ row ∈ d.stock.reservations.rows,
    ∃ order, d.orders.get? row.2.orderId = some order ∧
      row.2.quantity = demand (linesOf order) row.2.productId
  reserved : ∀ row ∈ d.stock.reservations.rows, Evidence past d.orders row.2.orderId
  shipments : ∀ row ∈ d.shipments.rows, Evidence past d.orders row.2.orderId
  shipped : ∀ id, statusOf d.orders id = some .shipped → shipmentsOf d.shipments id ≠ []

end Evidence

theorem SameOrders.refl (orders : SerialTable Orders.Order) : SameOrders orders orders :=
  fun _ order h => ⟨order.status, h⟩

theorem sameOrders_writeStatus (orders : SerialTable Orders.Order) (id : Int)
    (status : OrderStatus) : SameOrders orders (Orders.writeStatus orders id status) := by
  intro o order h
  unfold Orders.writeStatus
  rw [SerialTable.get?_modify, h]
  by_cases ho : o = id
  · exact ⟨status, if_pos ho⟩
  · exact ⟨order.status, if_neg ho⟩

theorem sameOrders_insert (orders : SerialTable Orders.Order) (order : Orders.Order) :
    SameOrders orders (orders.insert order) := by
  intro o old h
  exact ⟨old.status, SerialTable.get?_insert_of_some h order⟩

theorem Copies.withStatus {order : Orders.Order} {p : Payload} (h : Copies order p)
    (status : OrderStatus) : Copies (order.withStatus status) p := by
  cases p with
  | orderCreated => exact h
  | orderCancelled => exact h
  | _ => trivial

/-- Orders stay, an order that has a shipment keeps one, and the past is not undone. -/
structure Grows (past past' : Int → List Item → Prop) (d d' : State) : Prop where
  orders : SameOrders d.orders d'.orders
  shipments : ∀ o, shipmentsOf d.shipments o ≠ [] → shipmentsOf d'.shipments o ≠ []
  past : ∀ o items, past o items → past' o items

theorem Grows.flight (past : Int → List Item → Prop) (d : State) (flight : List Work) :
    Grows past past d { d with flight := flight } := ⟨.refl _, fun _ h => h, fun _ _ h => h⟩

section Grows

variable {past past' : Int → List Item → Prop} {d d' : State}

theorem Evidence.grow (hgrow : Grows past past' d d') {o : Int}
    (h : Evidence past d.orders o) : Evidence past' d'.orders o := by
  obtain ⟨order, hget, hreserved⟩ := h
  obtain ⟨status, hget'⟩ := hgrow.orders o order hget
  exact ⟨_, hget', hgrow.past o (linesOf order) hreserved⟩

theorem Grounded.grow (hgrow : Grows past past' d d') {p : Payload}
    (h : Grounded past d p) : Grounded past' d' p := by
  obtain ⟨order, hget, hcopies⟩ := h.order
  obtain ⟨status, hget'⟩ := hgrow.orders _ order hget
  exact ⟨⟨_, hget', hcopies.withStatus status⟩, fun ht => (h.reserved ht).grow hgrow,
    fun ht => hgrow.shipments _ (h.shipment ht)⟩

theorem Stage.Grounded.grow (hgrow : Grows past past' d d') {l : Letter} {stage : Stage}
    (h : stage.Grounded past d l) : stage.Grounded past' d' l := by
  cases stage with
  | inserted shipment => exact Platform.Grounded.grow hgrow h
  | announcing p => exact Platform.Grounded.grow hgrow h
  | _ => exact h

theorem Work.Grounded.grow (hgrow : Grows past past' d d') {w : Work}
    (h : w.Grounded past d) : w.Grounded past' d' := by
  cases w with
  | cancelling id order =>
    obtain ⟨row, hget, hcustomer⟩ := h
    obtain ⟨status, hget'⟩ := hgrow.orders id row hget
    exact ⟨_, hget', hcustomer⟩
  | requested p => exact Platform.Grounded.grow hgrow h
  | backoff l => exact Platform.Grounded.grow hgrow h
  | queued q l => exact Platform.Grounded.grow hgrow h
  | dead q l => exact Platform.Grounded.grow hgrow h
  | running q l stage => exact ⟨h.1.grow hgrow, h.2.grow hgrow⟩

end Grows

section New

variable {past : Int → List Item → Prop} {d : State} {l : Letter}

theorem grounded_exchange (h : Grounded past d l.payload) :
    ∀ w ∈ exchange l, w.Grounded past d := by
  intro w hw
  obtain ⟨q, -, rfl⟩ := List.mem_map.mp hw
  exact h

theorem grounded_failed (q : Queue) (h : Grounded past d l.payload) :
    (failed q l).Grounded past d := by
  unfold failed
  split_ifs
  · exact h
  · exact h

/-- The services copy nothing else from an order. -/
theorem Grounded.of_orderId {p p' : Payload} (h : Grounded past d p)
    (hid : p'.orderId = p.orderId) (hcreated : p'.eventType ≠ .orderCreated)
    (hcancelled : p'.eventType ≠ .orderCancelled)
    (hreserved : p'.eventType = .stockReserved → Evidence past d.orders p.orderId)
    (hshipment : p'.eventType = .shipmentCreated → shipmentsOf d.shipments p.orderId ≠ []) :
    Grounded past d p' := by
  obtain ⟨order, hget, -⟩ := h.order
  refine ⟨⟨order, hid ▸ hget, ?_⟩, hid ▸ hreserved, hid ▸ hshipment⟩
  cases p' with
  | orderCreated => exact absurd rfl hcreated
  | orderCancelled => exact absurd rfl hcancelled
  | _ => trivial

theorem Grounded.shipmentCreated (h : Grounded past d l.payload) {shipment : Int × Shipment}
    (hid : shipment.2.orderId = l.payload.orderId)
    (hshipment : shipmentsOf d.shipments l.payload.orderId ≠ []) :
    Grounded past d (Shipping.shipmentCreated shipment) :=
  h.of_orderId hid (by simp [Shipping.shipmentCreated, Payload.eventType])
    (by simp [Shipping.shipmentCreated, Payload.eventType])
    (by simp [Shipping.shipmentCreated, Payload.eventType]) fun _ => hshipment

theorem grounded_readOrder (h : Grounded past d l.payload) :
    ∀ w ∈ readOrder d l, w.Grounded past d := by
  intro w hw
  obtain ⟨status, htarget, rfl⟩ := mem_readOrder hw
  exact ⟨h, htarget⟩

theorem grounded_readShipment (h : Grounded past d l.payload) :
    ∀ w ∈ readShipment d l, w.Grounded past d := by
  intro w hw
  obtain ⟨htype, ⟨shipment, hfound, rfl⟩ | rfl⟩ := mem_readShipment hw
  · obtain ⟨horder, hpos⟩ := Shipping.existing_eq_some hfound
    exact ⟨h, h.shipmentCreated horder (List.ne_nil_of_length_pos hpos)⟩
  · exact ⟨h, htype⟩

/-- What the inventory service answers; `StockReserved` needs the rows. -/
theorem grounded_afterStock (h : Grounded past d l.payload) {phase : Phase}
    (hrows : phase = .finished (.reserved true) → Evidence past d.orders l.payload.orderId) :
    ∀ w ∈ afterStock l phase, w.Grounded past d := by
  intro w hw
  unfold afterStock at hw
  split at hw
  · rename_i ret
    split at hw
    · rename_i p hp
      rw [List.mem_singleton.mp hw]
      refine ⟨h, ?_⟩
      unfold answer at hp
      split at hp
      · rename_i orderId customerId total items ok hl
        have hid : l.payload.orderId = orderId := by rw [hl]; rfl
        cases ok with
        | true =>
          cases hp
          refine h.of_orderId hid.symm ?_ ?_ (fun _ => hrows rfl) ?_ <;> simp [Payload.eventType]
        | false =>
          cases hp
          refine h.of_orderId hid.symm ?_ ?_ ?_ ?_ <;> simp [Payload.eventType]
      · rename_i orderId customerId ids hl
        have hid : l.payload.orderId = orderId := by rw [hl]; rfl
        split_ifs at hp
        cases hp
        refine h.of_orderId hid.symm ?_ ?_ ?_ ?_ <;> simp [Payload.eventType]
      · cases hp
    · cases hw
  · rw [List.mem_singleton.mp hw]
    exact ⟨h, trivial⟩

end New

/-- New rows are those of a reservation, which then says that it succeeded. -/
theorem moved_rows {s s' : Inventory.Store} {c : Call} {phase phase' : Phase} {m : Inventory.Move}
    (hmoved : Inventory.Moved s c phase m phase' s') {row : Int × InventoryReservation}
    (hrow : row ∈ s'.reservations.rows) :
    row ∈ s.reservations.rows ∨
      ∃ items, c = .reserveForOrder row.2.orderId items ∧
        row.2.quantity = demand items row.2.productId ∧ phase' = .finished (.reserved true) := by
  cases hmoved with
  | inserted hcreate =>
    obtain ⟨-, -, -, rfl⟩ := Inventory.createProduct_eq_some hcreate
    exact .inl hrow
  | @reserved orderId items rows products =>
    unfold Inventory.reserveLocked at hrow ⊢
    by_cases hcovers : Inventory.covers (Inventory.wantedOf items) products = true
    · rw [if_pos hcovers] at hrow ⊢
      have hrow : row ∈ (s.reserved orderId items).reservations.rows := hrow
      rcases Inventory.mem_rows_reserved hrow with hold | ⟨horder, -, hquantity⟩
      · exact .inl hold
      · exact .inr ⟨items, by rw [horder], hquantity, rfl⟩
    · rw [if_neg hcovers] at hrow
      exact .inl hrow
  | released => exact .inl (List.mem_filter.mp hrow).1
  | _ => exact .inl hrow

/-- A reservation that succeeds has found rows of the order or written all of them. -/
theorem moved_reserved {s s' : Inventory.Store} {o : Int} {items : List Item} {phase : Phase}
    {m : Inventory.Move}
    (hmoved : Inventory.Moved s (.reserveForOrder o items) phase m
      (.finished (.reserved true)) s') :
    s.reservationsOf o ≠ [] ∨
      ∀ item ∈ items, ∃ row ∈ s'.reservationsOf o, row.2.productId = item.productId := by
  generalize hphase : Phase.finished (.reserved true) = phase' at hmoved
  cases hmoved with
  | readDone hrows => exact .inl hrows
  | @reserved _ _ rows products =>
    injection hphase with hret
    injection hret with hok
    have hcovers : Inventory.covers (Inventory.wantedOf items) products = true := by
      by_contra hnot
      unfold Inventory.reserveLocked at hok
      rw [if_neg hnot] at hok
      cases hok
    right
    intro item hitem
    have hsnd :=
      Inventory.reservationsOf_commitReservation_self s o (Inventory.wantedOf items) products
    have hkey : item.productId ∈ (Inventory.wantedOf items).keys :=
      (Inventory.mem_keys_wantedOf items _).mpr (List.mem_map_of_mem hitem)
    obtain ⟨w, hw, hproduct⟩ := List.mem_map.mp hkey
    have hnew : (⟨w.1, o, w.2⟩ : InventoryReservation) ∈
        ((s.commitReservation o (Inventory.wantedOf items) products).reservationsOf o).map
          Prod.snd := by
      rw [hsnd]
      exact List.mem_append_right _ (List.mem_map_of_mem hw)
    obtain ⟨row, hrow, hrowEq⟩ := List.mem_map.mp hnew
    unfold Inventory.reserveLocked
    rw [if_pos hcovers]
    exact ⟨row, hrow, by rw [hrowEq, hproduct]⟩
  | _ => cases hphase

/-- The past includes the present: rows that an order without a shipment has now. -/
def Records (past : Int → List Item → Prop) (d : State) : Prop :=
  ∀ o items, shipmentsOf d.shipments o = [] → d.HasRows o items → past o items

section Advance

variable {past past' : Int → List Item → Prop} {d e : State} {l : Letter} {c : Call}
  {phase phase' : Phase} {m : Inventory.Move}

theorem evidence_of_reserved (hfounded : d.Founded past) (hgrow : Grows past past' d e)
    (hrecords : Records past' e) (hl : Grounded past d l.payload) (hc : call l.payload = some c)
    (hmoved : Inventory.Moved d.stock c phase m (.finished (.reserved true)) e.stock)
    (hshipments : e.shipments = d.shipments) : Evidence past' e.orders l.payload.orderId := by
  obtain ⟨order, hget, hcopies⟩ := hl.order
  cases hp : l.payload with
  | orderCreated o customerId total items =>
    rw [hp] at hc hget hcopies
    cases hc
    by_cases hnone : shipmentsOf d.shipments o = []
    · rcases moved_reserved hmoved with hold | hnew
      · obtain ⟨row, hrow⟩ := List.exists_mem_of_ne_nil _ hold
        obtain ⟨hmem, horder⟩ := List.mem_filter.mp hrow
        have hevidence := hfounded.reserved row hmem
        rw [of_decide_eq_true horder] at hevidence
        exact hevidence.grow hgrow
      · obtain ⟨status, hget'⟩ := hgrow.orders o order hget
        refine ⟨_, hget', hrecords o _ (hshipments ▸ hnone) ?_⟩
        rw [hcopies.2] at hnew
        exact hnew
    · obtain ⟨row, hmem, horder⟩ := Shipping.shipmentsOf_ne_nil.mp hnone
      have hevidence := hfounded.shipments row hmem
      rw [horder] at hevidence
      exact hevidence.grow hgrow
  | orderCancelled o customerId =>
    rw [hp] at hc
    cases hc
    generalize hphase : Phase.finished (.reserved true) = phase' at hmoved
    generalize e.stock = s' at hmoved
    cases hmoved <;> cases hphase
  | _ =>
    rw [hp] at hc
    cases hc

variable {w : Work} {i : Nat} {move : Move} {new : List Work}

theorem advanced_sameOrders (h : Advanced d w move e new) : SameOrders d.orders e.orders := by
  cases h with
  | cancelled => exact sameOrders_writeStatus _ _ _
  | statusSet => exact sameOrders_writeStatus _ _ _
  | _ => exact .refl _

/-- Shipments are only added, each for the order of its handler's message. -/
theorem advanced_shipments (h : Advanced d w move e new) :
    e.shipments = d.shipments ∨ ∃ l shipment, w = .running .shipping l .unshipped ∧
      shipment.orderId = l.payload.orderId ∧ e.shipments = d.shipments.insert shipment := by
  cases h with
  | @shipped l courier year shipment shipments hinsert =>
    obtain ⟨-, horder, -, rfl⟩ := Shipping.insertShipment_eq_some hinsert
    exact .inr ⟨l, shipment.2, rfl, horder, rfl⟩
  | _ => exact .inl rfl

theorem shipmentsOf_insert_ne_nil {shipments : Shipments} {shipment : Shipment} {o : Int}
    (h : shipmentsOf shipments o ≠ [] ∨ shipment.orderId = o) :
    shipmentsOf (shipments.insert shipment) o ≠ [] := by
  rw [Shipping.shipmentsOf_insert]
  rcases h with h | h
  · exact List.append_ne_nil_of_left_ne_nil h _
  · rw [if_pos h]
    exact List.append_ne_nil_of_right_ne_nil _ (List.cons_ne_nil _ _)

theorem advanced_grows (h : Advanced d w move e new)
    (hpast : ∀ o items, past o items → past' o items) : Grows past past' d e := by
  refine ⟨advanced_sameOrders h, fun o hne => ?_, hpast⟩
  rcases advanced_shipments h with hsame | ⟨l, shipment, -, -, hinsert⟩
  · rw [hsame]
    exact hne
  · rw [hinsert]
    exact shipmentsOf_insert_ne_nil (.inl hne)

/-- What a step of a piece of work puts in its place is borne out by the tables. -/
theorem advanced_grounded (hfounded : d.Founded past) (hw : w.Grounded past d)
    (h : Advanced d w move e new) (hpast : ∀ o items, past o items → past' o items)
    (hrecords : Records past' e) : ∀ x ∈ new, x.Grounded past' e := by
  have hgrow : Grows past past' d e := advanced_grows h hpast
  cases h with
  | @cancelled id order =>
    intro x hx
    obtain ⟨row, hget, hcustomer⟩ := hw
    obtain ⟨status, hget'⟩ := hgrow.orders id row hget
    rw [List.mem_singleton.mp hx]
    exact ⟨⟨_, hget', hcustomer.symm⟩, by simp [Orders.orderCancelled, Payload.eventType],
      by simp [Orders.orderCancelled, Payload.eventType]⟩
  | cancelFailed => intro x hx; cases hx
  | requested => exact grounded_exchange (hw.grow hgrow)
  | requestFailed => intro x hx; cases hx
  | republished => exact grounded_exchange (hw.grow hgrow)
  | orderRead => exact fun x hx => (grounded_readOrder hw x hx).grow hgrow
  | shipmentRead => exact fun x hx => (grounded_readShipment hw x hx).grow hgrow
  | unhandled => intro x hx; cases hx
  | stockRead hc hmoved =>
    refine grounded_afterStock (Grounded.grow hgrow hw) ?_
    rintro rfl
    exact evidence_of_reserved hfounded hgrow hrecords hw hc hmoved rfl
  | queuedFailed =>
    intro x hx
    rw [List.mem_singleton.mp hx]
    exact grounded_failed _ (Grounded.grow hgrow hw)
  | statusSet => intro x hx; cases hx
  | stockMoved hc hmoved =>
    refine grounded_afterStock (hw.1.grow hgrow) ?_
    rintro rfl
    exact evidence_of_reserved hfounded hgrow hrecords hw.1 hc hmoved rfl
  | @shipped l courier year shipment shipments hinsert =>
    intro x hx
    obtain ⟨-, horder, -, rfl⟩ := Shipping.insertShipment_eq_some hinsert
    rw [List.mem_singleton.mp hx]
    have hl := hw.1.grow hgrow
    exact ⟨hl, hl.shipmentCreated horder (shipmentsOf_insert_ne_nil (.inr horder))⟩
  | shipRefused =>
    intro x hx
    rw [List.mem_singleton.mp hx]
    exact grounded_failed _ (hw.1.grow hgrow)
  | refreshed =>
    intro x hx
    rw [List.mem_singleton.mp hx]
    exact hw.grow hgrow
  | announced => exact grounded_exchange (hw.2.grow hgrow)
  | runningFailed =>
    intro x hx
    rw [List.mem_singleton.mp hx]
    exact grounded_failed _ (hw.1.grow hgrow)

/-- The row names an order, holds what the order's items ask for, and is evidence. -/
def RowFounded (past : Int → List Item → Prop) (orders : SerialTable Orders.Order)
    (row : Int × InventoryReservation) : Prop :=
  (∃ order, orders.get? row.2.orderId = some order ∧
    row.2.quantity = demand (linesOf order) row.2.productId) ∧ Evidence past orders row.2.orderId

theorem State.Founded.row (hfounded : d.Founded past) (hgrow : Grows past past' d e)
    {row : Int × InventoryReservation} (hrow : row ∈ d.stock.reservations.rows) :
    RowFounded past' e.orders row := by
  obtain ⟨order, hget, hquantity⟩ := hfounded.rows row hrow
  obtain ⟨status, hget'⟩ := hgrow.orders _ order hget
  exact ⟨⟨_, hget', hquantity⟩, (hfounded.reserved row hrow).grow hgrow⟩

/-- A step of an inventory handler. -/
theorem moved_founded (hfounded : d.Founded past) (hl : Grounded past d l.payload)
    (hgrow : Grows past past' d e) (hrecords : Records past' e) (hc : call l.payload = some c)
    (hmoved : Inventory.Moved d.stock c phase m phase' e.stock)
    (hshipments : e.shipments = d.shipments) :
    ∀ row ∈ e.stock.reservations.rows, RowFounded past' e.orders row := by
  intro row hrow
  rcases moved_rows hmoved hrow with hold | ⟨items, rfl, hquantity, rfl⟩
  · exact hfounded.row hgrow hold
  · have hevidence := evidence_of_reserved hfounded hgrow hrecords hl hc hmoved hshipments
    obtain ⟨order, hget, hcopies⟩ := hl.order
    cases hp : l.payload with
    | orderCreated o customerId total items =>
      rw [hp] at hc hget hcopies hevidence
      cases hc
      obtain ⟨status, hget'⟩ := hgrow.orders _ order hget
      refine ⟨⟨_, hget', ?_⟩, hevidence⟩
      rw [hquantity, hcopies.2]
      rfl
    | _ =>
      rw [hp] at hc
      cases hc

theorem advanced_rows (hfounded : d.Founded past) (hw : w.Grounded past d)
    (h : Advanced d w move e new) (hpast : ∀ o items, past o items → past' o items)
    (hrecords : Records past' e) :
    ∀ row ∈ e.stock.reservations.rows, RowFounded past' e.orders row := by
  have hgrow : Grows past past' d e := advanced_grows h hpast
  cases h with
  | stockRead hc hmoved => exact moved_founded hfounded hw hgrow hrecords hc hmoved rfl
  | stockMoved hc hmoved => exact moved_founded hfounded hw.1 hgrow hrecords hc hmoved rfl
  | _ => exact fun row hrow => hfounded.row hgrow hrow

/-- An order becomes shipped only by a message that its shipment has sent. -/
theorem advanced_shipped (hfounded : d.Founded past) (hw : w.Grounded past d)
    (h : Advanced d w move e new) {id : Int} (hid : statusOf e.orders id = some .shipped) :
    shipmentsOf e.shipments id ≠ [] := by
  cases h with
  | @cancelled j order =>
    rw [Orders.statusOf_writeStatus] at hid
    split_ifs at hid
    · obtain ⟨old, -, hnew⟩ := Option.map_eq_some_iff.mp hid
      cases hnew
    · exact hfounded.shipped id hid
  | @statusSet l status =>
    rw [Orders.statusOf_writeStatus] at hid
    split_ifs at hid with heq
    · obtain ⟨old, -, hnew⟩ := Option.map_eq_some_iff.mp hid
      obtain ⟨hl, htarget⟩ := hw
      have htarget : target l.payload = some .shipped := htarget.trans (congrArg some hnew)
      rw [heq]
      refine hl.shipment ?_
      rcases target_eq_some htarget with ⟨_, -, hs⟩ | ⟨-, hs⟩ | ⟨_, _, _, hp, -⟩
      · cases hs
      · cases hs
      · rw [hp]
        rfl
    · exact hfounded.shipped id hid
  | @shipped l courier year shipment shipments hinsert =>
    obtain ⟨-, -, -, rfl⟩ := Shipping.insertShipment_eq_some hinsert
    exact shipmentsOf_insert_ne_nil (.inl (hfounded.shipped id hid))
  | _ => exact hfounded.shipped id hid

/-- What is in flight after a step of a piece of work is old or was put there by it. -/
theorem advanced_founded {i : Nat} (hfounded : d.Founded past) (hw : d.flight[i]? = some w)
    (h : Advanced d w move e new) (hpast : ∀ o items, past o items → past' o items)
    (hrecords : Records past' e) :
    State.Founded past' { e with flight := Pool.replace d.flight i new } := by
  have hgrow : Grows past past' d e := advanced_grows h hpast
  have hground := hfounded.flight w (List.mem_of_getElem? hw)
  have hrows := advanced_rows hfounded hground h hpast hrecords
  refine ⟨fun x hx => ?_, fun row hrow => (hrows row hrow).1, fun row hrow => (hrows row hrow).2,
    fun row hrow => ?_, fun id hid => advanced_shipped hfounded hground h hid⟩
  · have hflight := Grows.flight past' e (Pool.replace d.flight i new)
    rcases Pool.mem_of_mem_replace hx with hold | hnew
    · exact ((hfounded.flight x hold).grow hgrow).grow hflight
    · exact (advanced_grounded hfounded hground h hpast hrecords x hnew).grow hflight
  · have hrow : row ∈ e.shipments.rows := hrow
    rcases advanced_shipments h with hsame | ⟨l, shipment, rfl, horder, hinsert⟩
    · rw [hsame] at hrow
      exact (hfounded.shipments row hrow).grow hgrow
    · rw [hinsert, SerialTable.rows_insert] at hrow
      rcases List.mem_append.mp hrow with hold | hlast
      · exact (hfounded.shipments row hold).grow hgrow
      · rw [List.mem_singleton.mp hlast]
        have hevidence := (hground.1.reserved hground.2).grow hgrow
        rwa [← horder] at hevidence

/-- A step that commits nothing new but orders, and puts in flight what they bear out. -/
theorem State.Founded.keep (hfounded : d.Founded past) (hgrow : Grows past past' d e)
    (hrows : ∀ row ∈ e.stock.reservations.rows, row ∈ d.stock.reservations.rows)
    (hshipments : ∀ row ∈ e.shipments.rows, ∃ old ∈ d.shipments.rows, old.2.orderId = row.2.orderId)
    (hshipped : ∀ id, statusOf e.orders id = some .shipped → statusOf d.orders id = some .shipped)
    (hflight : ∀ x ∈ e.flight, x ∈ d.flight ∨ x.Grounded past' e) : e.Founded past' := by
  refine ⟨fun x hx => ?_, fun row hrow => (hfounded.row hgrow (hrows row hrow)).1,
    fun row hrow => (hfounded.row hgrow (hrows row hrow)).2, fun row hrow => ?_, fun id hid => ?_⟩
  · rcases hflight x hx with hold | hnew
    · exact (hfounded.flight x hold).grow hgrow
    · exact hnew
  · obtain ⟨old, hold, horder⟩ := hshipments row hrow
    exact horder ▸ (hfounded.shipments old hold).grow hgrow
  · exact hgrow.shipments id (hfounded.shipped id (hshipped id hid))

/-- The tables stay, and what is new in flight is borne out by them. -/
theorem State.Founded.carry (hfounded : d.Founded past)
    (hpast : ∀ o items, past o items → past' o items) {flight : List Work}
    (hflight : ∀ x ∈ flight, x ∈ d.flight ∨ x.Grounded past d) :
    State.Founded past' { d with flight := flight } := by
  have hgrow : Grows past past' d { d with flight := flight } := ⟨.refl _, fun _ h => h, hpast⟩
  exact hfounded.keep hgrow (fun _ h => h) (fun row hrow => ⟨row, hrow, rfl⟩) (fun _ h => h)
    fun x hx => (hflight x hx).imp_right (Work.Grounded.grow hgrow)

theorem createOrder_founded {customerId : Int} {payload : Orders.OrderCreate} {order : Orders.Order}
    (hfounded : d.Founded past) (hnew : Orders.newOrder customerId payload = some order)
    (hpast : ∀ o items, past o items → past' o items) :
    State.Founded past' { d with
      orders := d.orders.insert order
      flight := d.flight ++ [.requested (Orders.orderCreated d.orders.next order)] } := by
  refine hfounded.keep ⟨sameOrders_insert _ _, fun _ h => h, hpast⟩ (fun _ h => h)
    (fun row hrow => ⟨row, hrow, rfl⟩) (fun id hid => ?_) fun x hx => ?_
  · rw [Orders.statusOf_insert] at hid
    split_ifs at hid
    · rw [(Orders.newOrder_eq_some hnew).1] at hid
      cases hid
    · exact hid
  · refine (List.mem_append.mp hx).imp_right fun hlast => ?_
    have hget : (d.orders.insert order).get? d.orders.next = some order := by
      rw [SerialTable.get?_insert, if_pos rfl]
    rw [List.mem_singleton.mp hlast]
    exact ⟨⟨order, hget, rfl, rfl⟩, by simp [Orders.orderCreated, Payload.eventType],
      by simp [Orders.orderCreated, Payload.eventType]⟩

theorem updateShipment_founded {id : Int} {status : Shipping.ShipmentStatus} {shipment : Shipment}
    (hfounded : d.Founded past) (hget : d.shipments.get? id = some shipment)
    (hpast : ∀ o items, past o items → past' o items) :
    State.Founded past' { d with
      shipments := Shipping.updateStatus d.shipments id status
      flight := d.flight ++
        if status = .delivered then [.requested (Shipping.shipmentDelivered shipment)]
        else [] } := by
  refine hfounded.keep ⟨.refl _, fun o hne => ?_, hpast⟩ (fun _ h => h) (fun row hrow => ?_)
    (fun _ h => h) fun x hx => ?_
  · apply List.ne_nil_of_length_pos
    rw [Shipping.length_shipmentsOf_updateStatus]
    exact List.length_pos_iff.mpr hne
  · obtain ⟨old, hold, rfl⟩ := List.mem_map.mp hrow
    refine ⟨old, hold, ?_⟩
    split_ifs <;> rfl
  · refine (List.mem_append.mp hx).imp_right fun hlast => ?_
    split_ifs at hlast
    · obtain ⟨order, horder, -⟩ :=
        hfounded.shipments (id, shipment) (SerialTable.mem_rows_of_get? hget)
      rw [List.mem_singleton.mp hlast]
      exact ⟨⟨order, horder, trivial⟩, by simp [Shipping.shipmentDelivered, Payload.eventType],
        by simp [Shipping.shipmentDelivered, Payload.eventType]⟩
    · cases hlast

theorem step_founded {a : Label} (hfounded : d.Founded past) (h : step d a = some e)
    (hpast : ∀ o items, past o items → past' o items) (hrecords : Records past' e) :
    e.Founded past' := by
  cases step_stepped h with
  | refused => exact hfounded.carry hpast fun x hx => .inl hx
  | created hnew => exact createOrder_founded hfounded hnew hpast
  | @loaded caller id order hload =>
    refine hfounded.carry hpast fun x hx => (List.mem_append.mp hx).imp_right fun hlast => ?_
    rw [List.mem_singleton.mp hlast]
    exact ⟨order, (Orders.loadCancellable_eq_ok hload).1, rfl⟩
  | productCreated hcreate =>
    obtain ⟨-, -, -, rfl⟩ := Inventory.createProduct_eq_some hcreate
    exact hfounded.keep ⟨.refl _, fun _ h => h, hpast⟩ (fun _ h => h)
      (fun row hrow => ⟨row, hrow, rfl⟩) (fun _ h => h) fun x hx => .inl hx
  | shipmentUpdated hget => exact updateShipment_founded hfounded hget hpast
  | worked hw hadvanced => exact advanced_founded hfounded hw hadvanced hpast hrecords

end Advance

theorem sends_grounded {past : Int → List Item → Prop} {d : State} {w : Work} {l : Letter}
    (hw : w.Grounded past d) (h : w.sends = some l) : Grounded past d l.payload := by
  cases w with
  | requested p =>
    cases h
    exact hw
  | backoff l' =>
    cases h
    exact hw
  | running q l' stage =>
    cases stage with
    | announcing p =>
      cases h
      exact hw.2
    | _ => cases h
  | _ => cases h

theorem step_sends_grounded {past : Int → List Item → Prop} {d : State} (hfounded : d.Founded past)
    {a : Label} {l : Letter} (h : l ∈ d.sends a) : Grounded past d l.payload := by
  unfold State.sends at h
  split at h
  · obtain ⟨w, hw, hsends⟩ := Option.bind_eq_some_iff.mp (Option.mem_toList.mp h)
    exact sends_grounded (hfounded.flight w (List.mem_of_getElem? hw)) hsends
  · cases h

/-- The tables bear each other out, and every message that was sent. -/
structure Network.Founded (past : Int → List Item → Prop) (n : Network) : Prop where
  services : n.services.Founded past
  sent : ∀ l ∈ n.sent, Grounded past n.services l.payload

theorem Network.Founded.carry {past past' : Int → List Item → Prop} {n : Network}
    (hfounded : n.Founded past) (hpast : ∀ o items, past o items → past' o items)
    {flight : List Work} {sent : List Letter}
    (hflight : ∀ x ∈ flight, x ∈ n.services.flight ∨ x.Grounded past n.services)
    (hsent : ∀ l ∈ sent, l ∈ n.sent ∨ Grounded past n.services l.payload) :
    Network.Founded past' ⟨{ n.services with flight := flight }, sent⟩ := by
  refine ⟨hfounded.services.carry hpast hflight, fun l hl => ?_⟩
  have hgrow : Grows past past' n.services { n.services with flight := flight } :=
    ⟨.refl _, fun _ h => h, hpast⟩
  rcases hsent l hl with hold | hnew
  · exact (hfounded.sent l hold).grow hgrow
  · exact hnew.grow hgrow

theorem step_grows {past past' : Int → List Item → Prop} {d e : State} {a : Label}
    (h : step d a = some e) (hpast : ∀ o items, past o items → past' o items) :
    Grows past past' d e := by
  cases step_stepped h with
  | created => exact ⟨sameOrders_insert _ _, fun _ h => h, hpast⟩
  | shipmentUpdated =>
    refine ⟨.refl _, fun o hne => ?_, hpast⟩
    apply List.ne_nil_of_length_pos
    rw [Shipping.length_shipmentsOf_updateStatus]
    exact List.length_pos_iff.mpr hne
  | productCreated hcreate =>
    obtain ⟨-, -, -, rfl⟩ := Inventory.createProduct_eq_some hcreate
    exact ⟨.refl _, fun _ h => h, hpast⟩
  | worked hw hadvanced =>
    have hgrow : Grows past past' d _ := advanced_grows hadvanced hpast
    exact ⟨hgrow.orders, hgrow.shipments, hpast⟩
  | _ => exact ⟨.refl _, fun _ h => h, hpast⟩

theorem networkStep_founded {past past' : Int → List Item → Prop} {n n' : Network} {a : NetworkAct}
    (hfounded : n.Founded past) (h : networkStep n a = some n')
    (hpast : ∀ o items, past o items → past' o items) (hrecords : Records past' n'.services) :
    n'.Founded past' := by
  cases a with
  | act a =>
    obtain ⟨d, hd, rfl⟩ := Option.map_eq_some_iff.mp h
    refine ⟨step_founded hfounded.services hd hpast hrecords, fun l hl => ?_⟩
    have hgrow : Grows past past' n.services d := step_grows hd hpast
    rcases List.mem_append.mp hl with hold | hnew
    · exact (hfounded.sent l hold).grow hgrow
    · exact (step_sends_grounded hfounded.services hnew).grow hgrow
  | taken i =>
    simp only [networkStep] at h
    split at h
    · cases h
    · rename_i l hl
      cases h
      obtain ⟨w, hw, hsends⟩ := Option.bind_eq_some_iff.mp hl
      have hground := sends_grounded (hfounded.services.flight w (List.mem_of_getElem? hw)) hsends
      refine hfounded.carry hpast (fun x hx => ?_) fun l' hl' => ?_
      · exact (List.mem_append.mp hx).imp_right (grounded_exchange hground x)
      · refine (List.mem_append.mp hl').imp_right fun hlast => ?_
        rw [List.mem_singleton.mp hlast]
        exact hground
  | redeliver q l =>
    simp only [networkStep] at h
    split_ifs at h with hsent
    cases h
    refine hfounded.carry hpast (fun x hx => ?_) fun l' hl' => .inl hl'
    refine (List.mem_append.mp hx).imp_right fun hlast => ?_
    rw [List.mem_singleton.mp hlast]
    exact hfounded.sent l hsent.1
  | retried l =>
    simp only [networkStep] at h
    split_ifs at h with hsent
    cases h
    have hground : Grounded past n.services l.payload := hfounded.sent l hsent.1
    refine hfounded.carry hpast (fun x hx => ?_) fun l' hl' => ?_
    · exact (List.mem_append.mp hx).imp_right
        (grounded_exchange (l := ⟨l.payload, l.retry + 1⟩) hground x)
    · refine (List.mem_append.mp hl').imp_right fun hlast => ?_
      rw [List.mem_singleton.mp hlast]
      exact hground
  | lost i =>
    cases h
    refine hfounded.carry hpast (fun x hx => ?_) fun l' hl' => .inl hl'
    rcases Pool.mem_of_mem_replace hx with hold | hin
    · exact .inl hold
    · cases hin

/-- What happened earlier in a run also happened earlier in a longer one. -/
theorem ReservedBefore.snoc {acts : List NetworkAct} {o : Int} {items : List Item}
    (h : ReservedBefore acts o items) (a : NetworkAct) : ReservedBefore (acts ++ [a]) o items := by
  obtain ⟨pre, post, n, rfl, hrun, hnone, hrows⟩ := h
  exact ⟨pre, post ++ [a], n, List.append_assoc .., hrun, hnone, hrows⟩

theorem exec_founded {acts : List NetworkAct} {n : Network}
    (hrun : exec networkStep .empty acts = some n) : n.Founded (ReservedBefore acts) := by
  refine exec_invariant_of_history (fun acts n => n.Founded (ReservedBefore acts)) ?_ ?_ hrun
  · refine ⟨⟨?_, ?_, ?_, ?_, ?_⟩, ?_⟩
    all_goals simp [Network.empty, State.empty, Inventory.Store.empty, SerialTable.empty]
    intro id hid
    cases hid
  · intro acts a n n' hprefix hfounded hstep
    refine networkStep_founded hfounded hstep (fun o items h => h.snoc a) ?_
    intro o items hnone hrows
    refine ⟨acts ++ [a], [], n', (List.append_nil _).symm, ?_, hnone, hrows⟩
    exact exec_append_eq_some.mpr ⟨n, hprefix, exec_cons_eq_some.mpr ⟨n', hstep, rfl⟩⟩

theorem Grounded.named {past : Int → List Item → Prop} {d : State} {p : Payload}
    (h : Grounded past d p) : d.orders.get? p.orderId ≠ none := by
  obtain ⟨order, hget, -⟩ := h.order
  simp [hget]

theorem Work.Grounded.payloads {past : Int → List Item → Prop} {d : State} {w : Work}
    (h : w.Grounded past d) : ∀ p ∈ w.payloads, Platform.Grounded past d p := by
  intro p hp
  cases w with
  | cancelling id order => cases hp
  | running q l stage =>
    have hl : p = l.payload → Platform.Grounded past d p := fun heq => heq ▸ h.1
    cases stage with
    | announcing p' =>
      rcases List.mem_cons.mp hp with heq | hlast
      · exact hl heq
      · rw [List.mem_singleton.mp hlast]
        exact h.2
    | inserted shipment =>
      rcases List.mem_cons.mp hp with heq | hlast
      · exact hl heq
      · rw [List.mem_singleton.mp hlast]
        exact h.2
    | _ => exact hl (List.mem_singleton.mp hp)
  | _ =>
    rw [List.mem_singleton.mp hp]
    exact h

/-- In every state that the services reach on such a network, what the events, the
reservations, the shipments and the statuses say is borne out by the other services. -/
theorem causal_integrity (acts : List NetworkAct) (n : Network)
    (hrun : exec networkStep .empty acts = some n) : n.Integrity acts := by
  have hfounded := exec_founded hrun
  have hflight := hfounded.services.flight
  refine ⟨fun w hw p hp => ((hflight w hw).payloads p hp).named,
    fun l hl => (hfounded.sent l hl).named,
    hfounded.services.rows, hfounded.services.shipments, fun id order hget hshipped => ?_, ?_⟩
  · refine Shipping.shipmentsOf_ne_nil.mp (hfounded.services.shipped id ?_)
    unfold statusOf
    rw [hget, ← hshipped]
    rfl
  · rintro a ⟨i, l, -, hi, -, hnone⟩
    exact (hflight _ (List.mem_of_getElem? hi)).named hnone

/-- `OrderCreated` is handled twice at a time, and `StockReserved` comes again after its
handler crashed. -/
def handledTwice : List NetworkAct :=
  let work i m := NetworkAct.act (.work i m)
  let created : Letter := ⟨.orderCreated 1 7 2000 [⟨1, 2⟩], 0⟩
  let reserved : Letter := ⟨.stockReserved 1 [⟨1, 2⟩], 0⟩
  [.act (.createProduct 1 Inventory.widget), .act (.createOrder 7 Orders.oneItem), work 0 .go,
    .redeliver .inventory created,
    work 0 (.stock .read), work 0 (.stock .read),
    work 0 (.stock .snapshot), work 1 (.stock (.lock 1)), work 1 (.stock .finish),
    work 1 .go, work 2 .go, .lost 2, .redeliver .shipping reserved,
    work 2 .go, work 2 (.ship "DHL" 2026), work 2 .go, work 2 .go, work 2 .go, work 2 .go]

theorem causal_integrity_handledTwice :
    ∃ n, exec networkStep .empty handledTwice = some n ∧
      statusOf n.services.orders 1 = some .shipped ∧
      n.services.shipments.rows ≠ [] ∧ n.Integrity handledTwice := by
  have hsome : (exec networkStep .empty handledTwice).isSome := by decide +kernel
  have hrows : ∀ n ∈ exec networkStep .empty handledTwice,
      statusOf n.services.orders 1 = some .shipped ∧ n.services.shipments.rows ≠ [] := by
    decide +kernel
  obtain ⟨n, hn⟩ := Option.isSome_iff_exists.mp hsome
  exact ⟨n, hn, (hrows n hn).1, (hrows n hn).2, causal_integrity handledTwice n hn⟩

end OrderMesh.Platform
