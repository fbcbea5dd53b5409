import OrderMesh.Platform.Simulation

namespace OrderMesh.Platform

open Inventory (Call InventoryReservation Phase)
open Transition

structure State.Inv (d : State) : Prop where
  sound : d.Sound
  shape : ∀ o, (d.saga o).Shape

/-- The stock of the order is or was reserved, and no `OrderCreated` is left. -/
def State.Held (d : State) (o : Int) : Prop := (d.saga o).Granted ∨ (d.saga o).Released

theorem State.Held.creating {d : State} {o : Int} (h : d.Held o) :
    d.owed .inventory .orderCreated o = 0 := h.elim Saga.Granted.creating Saga.Released.creating

theorem State.Held.step {d d' : State} {o : Int} {releasing : Prop} (h : d.Held o)
    (hs : Saga.Step releasing (d.saga o) (d'.saga o)) : d'.Held o := by
  rcases h with h | h
  · exact (h.step hs).imp_right And.right
  · exact .inr (h.step hs)

/-- Rows are held only by an order whose stock was reserved. -/
theorem State.Inv.held {d : State} (hinv : d.Inv) {o : Int}
    (hrows : d.stock.reservationsOf o ≠ []) :
    (d.saga o).Granted := by
  have hne : (d.saga o).rows ≠ [] := fun hnil => hrows (List.map_eq_nil_iff.mp hnil)
  cases hinv.shape o with
  | blank h => exact absurd h.rows hne
  | awaiting h => exact absurd h.rows hne
  | granted h => exact h
  | refused h => exact absurd h.rows hne
  | released h => exact absurd h.rows hne

/-- Every order of the first table is in the second, with the same lines. -/
def Extends (orders orders' : SerialTable Orders.Order) : Prop :=
  ∀ id order, orders.get? id = some order →
    ∃ order', orders'.get? id = some order' ∧ linesOf order' = linesOf order

theorem Extends.refl (orders : SerialTable Orders.Order) : Extends orders orders :=
  fun _ order h => ⟨order, h, rfl⟩

theorem extends_writeStatus (orders : SerialTable Orders.Order) (id : Int)
    (status : Orders.OrderStatus) : Extends orders (Orders.writeStatus orders id status) := by
  intro o order h
  unfold Orders.writeStatus
  rw [SerialTable.get?_modify, h]
  by_cases ho : o = id
  · exact ⟨order.withStatus status, if_pos ho, rfl⟩
  · exact ⟨order, if_neg ho, rfl⟩

theorem extends_insert (orders : SerialTable Orders.Order) (order : Orders.Order) :
    Extends orders (orders.insert order) := by
  intro o old h
  exact ⟨old, SerialTable.get?_insert_of_some h order, rfl⟩

theorem Known.extends {orders orders' : SerialTable Orders.Order} {p : Payload}
    (h : Known orders p) (hext : Extends orders orders') : Known orders' p := by
  obtain ⟨order, hget, hitems⟩ := h
  obtain ⟨order', hget', hlines⟩ := hext _ order hget
  exact ⟨order', hget', fun o c t items hp => (hitems o c t items hp).trans hlines.symm⟩

/-- What a step keeps for the work that is already in flight. -/
structure Keeps (d d' : State) : Prop where
  orders : Extends d.orders d'.orders
  held : ∀ o, d.Held o → d'.Held o
  reads : ∀ o rows, d.Held o → Reads d.stock o rows → Reads d'.stock o rows

theorem Stage.Sound.keep {d d' : State} (hkeep : Keeps d d') {q : Queue} {l : Letter}
    {stage : Stage} (h : stage.Sound d q l) : stage.Sound d' q l := by
  cases stage with
  | stock phase =>
    intro o c hl
    obtain ⟨hread, hheld⟩ := h o c hl
    exact ⟨hkeep.reads o _ hheld hread, hkeep.held o hheld⟩
  | announcing p => exact Known.extends h hkeep.orders
  | _ => exact h

theorem Work.Sound.keep {d d' : State} (hkeep : Keeps d d') {w : Work} (h : w.Sound d) :
    w.Sound d' := by
  have hknown : ∀ {p : Payload}, Known d.orders p → Known d'.orders p :=
    fun hp => hp.extends hkeep.orders
  cases w with
  | cancelling id order =>
    obtain ⟨row, hget⟩ := h
    obtain ⟨row', hget', -⟩ := hkeep.orders id row hget
    exact ⟨row', hget'⟩
  | requested p => exact hknown h
  | backoff l => exact hknown h
  | queued q l => exact ⟨h.1, hknown h.2⟩
  | dead q l => exact ⟨h.1, hknown h.2⟩
  | running q l stage => exact ⟨⟨h.1.1, hknown h.1.2⟩, h.2.keep hkeep⟩

/-- A transaction that reserves for no such order keeps what a release has read. -/
theorem Reads.moved {s s' : Inventory.Store} {c : Call} {phase phase' : Phase} {m : Inventory.Move}
    {o : Int} {rows : List (Int × InventoryReservation)} (h : Reads s o rows)
    (hmoved : Inventory.Moved s c phase m phase' s')
    (hother : ∀ id items, c = .reserveForOrder id items → id ≠ o) : Reads s' o rows := by
  cases hmoved with
  | inserted hcreate =>
    obtain ⟨-, -, -, rfl⟩ := Inventory.createProduct_eq_some hcreate
    exact ⟨h.covers, h.names⟩
  | @reserved id items rows' products =>
    unfold Inventory.reserveLocked
    split_ifs
    · refine ⟨fun r hr => h.covers r ?_, h.names.insertAll _⟩
      rwa [Inventory.reservationsOf_commitReservation_other s _ _ (Ne.symm (hother id items rfl))]
        at hr
    · exact h
  | released =>
    refine ⟨fun r hr => h.covers r ?_, h.names.deleteIds _⟩
    obtain ⟨hmem, hp⟩ := List.mem_filter.mp hr
    exact List.mem_filter.mpr ⟨(List.mem_filter.mp hmem).1, hp⟩
  | _ => exact h

theorem sound_exchange {d : State} {l : Letter} (h : Known d.orders l.payload) :
    ∀ w ∈ exchange l, w.Sound d := by
  intro w hw
  obtain ⟨q, hq, rfl⟩ := List.mem_map.mp hw
  exact ⟨of_decide_eq_true (List.mem_filter.mp hq).2, h⟩

theorem sound_failed {d : State} {q : Queue} {l : Letter}
    (hbound : l.payload.eventType ∈ q.handlers)
    (h : Known d.orders l.payload) : (failed q l).Sound d := by
  unfold failed
  split_ifs
  · exact ⟨hbound, h⟩
  · exact h

theorem known_shipmentCreated {orders : SerialTable Orders.Order} {p : Payload}
    {shipment : Int × Shipping.Shipment} (h : Known orders p)
    (hid : shipment.2.orderId = p.orderId) : Known orders (Shipping.shipmentCreated shipment) := by
  obtain ⟨order, hget, -⟩ := h
  have hget' : orders.get? (Shipping.shipmentCreated shipment).orderId = some order :=
    (congrArg orders.get? hid).trans hget
  exact ⟨order, hget', fun _ _ _ _ hp => by cases hp⟩

theorem known_answer {orders : SerialTable Orders.Order} {p p' : Payload} {ret : Inventory.Ret}
    (h : Known orders p) (hanswer : answer p ret = some p') : Known orders p' := by
  obtain ⟨order, hget, -⟩ := h
  refine ⟨order, answer_orderId hanswer ▸ hget, fun o c t items hp => ?_⟩
  subst hp
  unfold answer at hanswer
  split at hanswer
  · split_ifs at hanswer <;> cases hanswer
  · split_ifs at hanswer
    cases hanswer
  · cases hanswer

theorem sound_readOrder {d : State} {l : Letter}
    (h : l.payload.eventType ∈ Queue.order.handlers ∧ Known d.orders l.payload) :
    ∀ w ∈ readOrder d l, w.Sound d := by
  intro w hw
  obtain ⟨status, htarget, rfl⟩ := mem_readOrder hw
  exact ⟨h, htarget⟩

theorem sound_readShipment {d : State} {l : Letter}
    (h : l.payload.eventType ∈ Queue.shipping.handlers ∧ Known d.orders l.payload) :
    ∀ w ∈ readShipment d l, w.Sound d := by
  intro w hw
  obtain ⟨-, ⟨shipment, hfound, rfl⟩ | rfl⟩ := mem_readShipment hw
  · exact ⟨h, known_shipmentCreated h.2 (Shipping.existing_eq_some hfound).1⟩
  · exact ⟨h, trivial⟩

/-- A transaction that goes on keeps what it has read; a release that starts reads
the rows of the order. -/
theorem sound_afterStock {d d' : State} {l : Letter} {c : Call} {phase phase' : Phase}
    {m : Inventory.Move} (hinv : d.Inv) (hkeep : Keeps d d')
    (h : l.payload.eventType ∈ Queue.inventory.handlers ∧ Known d.orders l.payload)
    (hc : call l.payload = some c) (hmoved : Inventory.Moved d.stock c phase m phase' d'.stock)
    (hphase : phase ≠ .ready → (Stage.stock phase).Sound d .inventory l) :
    ∀ w ∈ afterStock l phase', w.Sound d' := by
  have haddressed : l.payload.eventType ∈ Queue.inventory.handlers ∧ Known d'.orders l.payload :=
    ⟨h.1, h.2.extends hkeep.orders⟩
  have hstage : (∀ ret, phase' ≠ .finished ret) → (Stage.stock phase').Sound d' .inventory l := by
    intro hnot o customerId hl
    have hkept : ∀ rows, d.Held o → Reads d.stock o rows → Reads d'.stock o rows ∧ d'.Held o :=
      fun rows hheld hread => ⟨hkeep.reads o rows hheld hread, hkeep.held o hheld⟩
    rw [hl] at hc
    cases hc
    generalize d'.stock = s at hmoved hkept
    cases hmoved with
    | readEmpty => exact absurd rfl (hnot _)
    | readRows hrows =>
      refine hkept _ (.inl (hinv.held hrows)) ⟨fun r hr => List.mem_map_of_mem hr, ?_⟩
      exact d.stock.reservations.names_select _
    | snapshot =>
      obtain ⟨hread, hheld⟩ := hphase (by simp) o customerId hl
      exact hkept _ hheld hread
    | locked =>
      obtain ⟨hread, hheld⟩ := hphase (by simp) o customerId hl
      exact hkept _ hheld hread
    | released => exact absurd rfl (hnot _)
  intro w hw
  unfold afterStock at hw
  split at hw
  · split at hw
    · rename_i hp
      rw [List.mem_singleton.mp hw]
      exact ⟨haddressed, known_answer haddressed.2 hp⟩
    · cases hw
  · rw [List.mem_singleton.mp hw]
    exact ⟨haddressed, hstage fun ret heq => by simp_all⟩

section Advance

variable {d e : State} {i : Nat} {w : Work} {m : Move} {new : List Work}

theorem advanced_orders (h : Advanced d w m e new) : Extends d.orders e.orders := by
  cases h with
  | cancelled => exact extends_writeStatus _ _ _
  | statusSet => exact extends_writeStatus _ _ _
  | _ => exact .refl _

theorem advanced_reads (hw : w ∈ d.flight) (h : Advanced d w m e new) {o : Int}
    {rows : List (Int × InventoryReservation)} (hheld : d.Held o) (hread : Reads d.stock o rows) :
    Reads e.stock o rows := by
  have hother : ∀ (l : Letter) (c : Call), call l.payload = some c →
      w.owes .inventory .orderCreated o = about .orderCreated o l.payload →
      ∀ id items, c = .reserveForOrder id items → id ≠ o := by
    rintro l c hc howes id items rfl rfl
    have hnone := hheld.creating
    have hfalse : w.owes .inventory .orderCreated id = false := by
      by_contra hne
      exact absurd hnone (List.countP_pos_iff.mpr ⟨w, hw, by simpa using hne⟩).ne'
    rw [hfalse] at howes
    cases hl : l.payload <;> rw [hl] at hc howes <;> cases hc
    simp [about, Payload.eventType, Payload.orderId] at howes
  cases h with
  | @stockRead l c _ _ _ hc hmoved => exact hread.moved hmoved (hother l c hc (by simp))
  | @stockMoved l c _ _ _ _ hc hmoved => exact hread.moved hmoved (hother l c hc (by simp))
  | _ => exact hread

theorem advanced_sound {d' : State} (hinv : d.Inv) (hw : w ∈ d.flight) (h : Advanced d w m e new)
    (hkeep : Keeps d d') (hstock : d'.stock = e.stock) : ∀ x ∈ new, x.Sound d' := by
  have hsound := hinv.sound w hw
  have hkept : w.Sound d' := hsound.keep hkeep
  cases h with
  | @cancelled id order =>
    intro x hx
    rw [List.mem_singleton.mp hx]
    obtain ⟨row, hget⟩ := hkept
    exact ⟨row, hget, fun _ _ _ _ hp => by cases hp⟩
  | cancelFailed => intro x hx; cases hx
  | requested => exact sound_exchange hkept
  | requestFailed => intro x hx; cases hx
  | republished => exact sound_exchange hkept
  | orderRead => exact fun x hx => (sound_readOrder hsound x hx).keep hkeep
  | shipmentRead => exact fun x hx => (sound_readShipment hsound x hx).keep hkeep
  | unhandled => intro x hx; cases hx
  | stockRead hc hmoved =>
    exact sound_afterStock hinv hkeep hsound hc (by rw [hstock]; exact hmoved) fun hready =>
      absurd rfl hready
  | queuedFailed =>
    intro x hx
    rw [List.mem_singleton.mp hx]
    exact sound_failed hkept.1 hkept.2
  | statusSet => intro x hx; cases hx
  | stockMoved hc hmoved =>
    exact sound_afterStock hinv hkeep hsound.1 hc (by rw [hstock]; exact hmoved) fun _ => hsound.2
  | shipped hinsert =>
    intro x hx
    rw [List.mem_singleton.mp hx]
    exact ⟨hkept.1, rfl, (Shipping.insertShipment_eq_some hinsert).2.1⟩
  | shipRefused =>
    intro x hx
    rw [List.mem_singleton.mp hx]
    exact sound_failed hkept.1.1 hkept.1.2
  | refreshed =>
    intro x hx
    rw [List.mem_singleton.mp hx]
    exact ⟨hkept.1, known_shipmentCreated hkept.1.2 hkept.2.2⟩
  | announced => exact sound_exchange hkept.2
  | runningFailed =>
    intro x hx
    rw [List.mem_singleton.mp hx]
    exact sound_failed hkept.1.1 hkept.1.2

end Advance

/-- A shipment belongs to an order that exists. -/
theorem State.Inv.known_shipment {d : State} (hinv : d.Inv) {id : Int}
    {shipment : Shipping.Shipment}
    (h : d.shipments.get? id = some shipment) :
    Known d.orders (Shipping.shipmentDelivered shipment) := by
  have hmem : (id, shipment) ∈ Shipping.shipmentsOf d.shipments shipment.orderId :=
    List.mem_filter.mpr ⟨SerialTable.mem_rows_of_get? h, by simp⟩
  have hpos := List.length_pos_of_mem hmem
  have hsome : (d.saga shipment.orderId).status ≠ none := by
    cases hinv.shape shipment.orderId with
    | blank h =>
      have hzero : (Shipping.shipmentsOf d.shipments shipment.orderId).length = 0 := h.shipments
      omega
    | awaiting h => exact h.status
    | granted h => exact h.status_ne_none
    | refused h => exact h.status_ne_none
    | released h => exact h.status
  obtain ⟨status, hstatus⟩ := Option.ne_none_iff_exists'.mp hsome
  obtain ⟨order, hget, -⟩ := Option.map_eq_some_iff.mp hstatus
  exact ⟨order, hget, fun _ _ _ _ hp => by cases hp⟩

theorem step_inv {d d' : State} {a : Label} (hinv : d.Inv) (hannounced : Announced d a)
    (h : step d a = some d') : d'.Inv := by
  have hsaga := step_saga hinv.sound hannounced h
  refine ⟨?_, fun o => (hinv.shape o).step (hsaga o)⟩
  have hheld : ∀ o, d.Held o → d'.Held o := fun o ho => ho.step (hsaga o)
  have hadd : ∀ new, d'.flight = d.flight ++ new → Extends d.orders d'.orders →
      d'.stock.reservations = d.stock.reservations → (∀ x ∈ new, x.Sound d') → d'.Sound := by
    intro new hflight horders hstock hnew x hx
    have hkeep : Keeps d d' := by
      refine ⟨horders, hheld, fun o rows _ hread => ⟨?_, hstock ▸ hread.names⟩⟩
      have hrows : d'.stock.reservationsOf o = d.stock.reservationsOf o := by
        unfold Inventory.Store.reservationsOf
        rw [hstock]
      exact hrows ▸ hread.covers
    rw [hflight] at hx
    rcases List.mem_append.mp hx with hold | hin
    · exact (hinv.sound x hold).keep hkeep
    · exact hnew x hin
  cases step_stepped h with
  | refused => exact hinv.sound
  | @created customerId payload order hnew =>
    refine hadd _ rfl (extends_insert _ _) rfl fun x hx => ?_
    rw [List.mem_singleton.mp hx]
    have hget : (d.orders.insert order).get? d.orders.next = some order := by
      rw [SerialTable.get?_insert, if_pos rfl]
    refine ⟨order, hget, fun o c t items hp => ?_⟩
    cases hp
    rfl
  | @loaded caller id order hload =>
    refine hadd _ rfl (.refl _) rfl fun x hx => ?_
    rw [List.mem_singleton.mp hx]
    exact ⟨order, (Orders.loadCancellable_eq_ok hload).1⟩
  | productCreated hcreate =>
    obtain ⟨-, -, -, hs⟩ := Inventory.createProduct_eq_some hcreate
    refine hadd [] (List.append_nil _).symm (.refl _) ?_ fun x hx => by cases hx
    rw [hs]
  | shipmentUpdated hget =>
    refine hadd _ rfl (.refl _) rfl fun x hx => ?_
    split_ifs at hx
    · rw [List.mem_singleton.mp hx]
      exact hinv.known_shipment hget
    · cases hx
  | @worked i m w e new hw hadvanced =>
    have hmem := List.mem_of_getElem? hw
    have horders : Extends d.orders e.orders := advanced_orders hadvanced
    have hreads : ∀ o rows, d.Held o → Reads d.stock o rows → Reads e.stock o rows :=
      fun o rows => advanced_reads hmem hadvanced
    have hkeep : Keeps d { e with flight := Pool.replace d.flight i new } :=
      ⟨horders, hheld, hreads⟩
    intro x hx
    rcases Pool.mem_of_mem_replace hx with hold | hin
    · exact (hinv.sound x hold).keep hkeep
    · exact advanced_sound hinv hmem hadvanced hkeep rfl x hin

theorem inv_empty : State.empty.Inv := by
  constructor
  · intro w hw
    cases hw
  · intro o
    exact .blank ⟨rfl, rfl, rfl, rfl, rfl, rfl, rfl, rfl, rfl⟩

/-- The invariant holds in every run in which what is committed is announced. -/
theorem exec_inv {acts : List Label} {d : State} (hannounced : Meets step Announced .empty acts)
    (hrun : exec step .empty acts = some d) : d.Inv :=
  exec_invariant_of_meets State.Inv (fun _ _ _ => step_inv) inv_empty hannounced hrun

end OrderMesh.Platform
