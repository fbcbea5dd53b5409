import OrderMesh.Platform.AtRest
import OrderMesh.Platform.LockOrder
import OrderMesh.Shipping.Transactions

namespace OrderMesh.Platform

open Inventory (Phase Store)
open Shipping (Shipments insertShipment shipmentsOf)
open Transition

def Label.fails : Label → Bool
  | .work _ .fail => true
  | _ => false

/-- Nothing fails, and rows are locked in order. -/
def Smooth (d : State) (a : Label) : Prop := a.fails = false ∧ Ascending d a

instance (d : State) (a : Label) : Decidable (Smooth d a) :=
  inferInstanceAs (Decidable (a.fails = false ∧ Ascending d a))

def workSmoothly : State → Nat × Move → Option State :=
  restrict work fun d m => Smooth d (.work m.1 m.2)

theorem Smooth.ne_fail {d : State} {i : Nat} {m : Move} (h : Smooth d (.work i m)) : m ≠ .fail := by
  rintro rfl
  cases h.1

theorem Smooth.announced {d : State} {a : Label} (h : Smooth d a) : Announced d a := by
  unfold Announced
  split
  · cases h.1
  · trivial

theorem smooth_of_ascending {d : State} {i : Nat} {m : Move} (hm : m ≠ .fail)
    (h : Ascending d (.work i m)) : Smooth d (.work i m) := by
  refine ⟨?_, h⟩
  cases m with
  | fail => exact absurd rfl hm
  | _ => rfl

/-- The work whose handling may still lead to a shipment of the order. -/
def sources (o : Int) (flight : List Work) : Nat :=
  flight.countP (Work.owes .inventory .orderCreated o) +
    flight.countP (Work.owes .shipping .stockReserved o)

theorem sources_append (o : Int) (flight new : List Work) :
    sources o (flight ++ new) = sources o flight + sources o new := by
  simp only [sources, List.countP_append]
  omega

theorem sources_replace {flight : List Work} {i : Nat} {w : Work} (hw : flight[i]? = some w)
    (new : List Work) (o : Int) :
    sources o (Pool.replace flight i new) + sources o [w] = sources o flight + sources o new := by
  have hcreating := Pool.countP_replace hw new (Work.owes .inventory .orderCreated o)
  have hshipping := Pool.countP_replace hw new (Work.owes .shipping .stockReserved o)
  simp only [sources, List.countP_singleton]
  omega

theorem sources_exchange (l : Letter) (o : Int) :
    sources o (exchange l) = sources o [.requested l.payload] := by
  simp only [sources, countP_exchange, List.countP_singleton, owes_requested]
  rfl

/-- The shipping queue is bound to one type of events. -/
theorem eventType_of_shipping {l : Letter} (h : l.payload.eventType ∈ Queue.shipping.handlers) :
    l.payload.eventType = .stockReserved := by simpa [Queue.handlers] using h

/-- A handler that failed is on its way back or dead, the others are ongoing. -/
def Work.Ongoing : Work → Prop
  | .cancelling .. | .backoff _ | .dead .. => False
  | _ => True

theorem not_ongoing_failed (q : Queue) (l : Letter) : ¬ (failed q l).Ongoing := by
  unfold failed
  split_ifs
  · exact id
  · exact id

theorem ongoing_exchange {l : Letter} {w : Work} (h : w ∈ exchange l) : w.Ongoing := by
  obtain ⟨q, -, rfl⟩ := List.mem_map.mp h
  trivial

/-- Inventory answers with an event that leads to a shipment only where it handles such a one. -/
theorem sources_answer {p p' : Payload} {ret : Inventory.Ret} (h : answer p ret = some p')
    (o : Int) : sources o [.requested p'] ≤ if about .orderCreated o p then 1 else 0 := by
  unfold answer at h
  split at h
  · cases h
    split_ifs <;> simp_all [sources, due, about, Payload.eventType, Payload.orderId, Queue.handlers]
  · split_ifs at h
    cases h
    simp [sources, due, about, Payload.eventType]
  · cases h

/-- What a transaction leaves behind leads to a shipment only if the event it handles does. -/
theorem sources_afterStock (l : Letter) (phase : Phase) (o : Int) :
    sources o (afterStock l phase) ≤ sources o [.queued .inventory l] := by
  have hqueued : sources o [.queued .inventory l] =
      if about .orderCreated o l.payload then 1 else 0 := by
    simp [sources, List.countP_singleton]
  unfold afterStock
  split
  · split
    · rename_i p hp
      rw [hqueued]
      exact sources_answer hp o
    · simp [sources]
  · exact Nat.le_refl _

theorem sources_readOrder (d : State) (l : Letter) (o : Int) : sources o (readOrder d l) = 0 := by
  have hnone : ∀ q t, q ≠ .order → (readOrder d l).countP (Work.owes q t o) = 0 := by
    intro q t hq
    apply List.countP_eq_zero.mpr
    intro w hw
    obtain ⟨status, -, rfl⟩ := mem_readOrder hw
    simp [Ne.symm hq]
  simp only [sources, hnone _ _ (show Queue.inventory ≠ .order by simp),
    hnone _ _ (show Queue.shipping ≠ .order by simp)]

theorem sources_shipmentCreated (shipment : Int × Shipping.Shipment) (o : Int) :
    sources o [.requested (Shipping.shipmentCreated shipment)] = 0 := by
  simp [sources, due_shipmentCreated]

/-- The lookup of the shipping handler starts nothing new. -/
theorem sources_readShipment (d : State) (l : Letter) (o : Int) :
    sources o (readShipment d l) ≤ sources o [.queued .shipping l] := by
  unfold readShipment
  split
  · split
    · exact le_of_eq_of_le (sources_shipmentCreated _ o) (Nat.zero_le _)
    · exact Nat.le_refl _
  · exact Nat.zero_le _

/-- A step that does not fail starts no second shipment. -/
theorem advanced_sources {d e : State} {w : Work} {m : Move} {new : List Work}
    (hsound : w.Sound d) (hongoing : ∀ b ∈ new, b.Ongoing) (h : Advanced d w m e new) (o : Int) :
    sources o new + (shipmentsOf e.shipments o).length ≤
      sources o [w] + (shipmentsOf d.shipments o).length := by
  have hfailed : ∀ q l, (∀ b ∈ [failed q l], b.Ongoing) → False := by
    intro q l hongoing
    exact not_ongoing_failed q l (hongoing _ (List.mem_singleton_self _))
  cases h with
  | cancelled =>
    apply Nat.add_le_add_right
    simp [sources, Orders.orderCancelled, due, about, Payload.eventType]
  | cancelFailed => exact Nat.add_le_add_right (Nat.zero_le _) _
  | requested => exact Nat.add_le_add_right (Nat.le_of_eq (sources_exchange _ o)) _
  | requestFailed => exact Nat.add_le_add_right (Nat.zero_le _) _
  | republished => exact Nat.add_le_add_right (Nat.le_of_eq (sources_exchange _ o)) _
  | @orderRead l =>
    apply Nat.add_le_add_right
    rw [sources_readOrder]
    exact Nat.zero_le _
  | shipmentRead => exact Nat.add_le_add_right (sources_readShipment d _ o) _
  | unhandled => exact Nat.add_le_add_right (Nat.zero_le _) _
  | stockRead => exact Nat.add_le_add_right (sources_afterStock _ _ o) _
  | queuedFailed => exact (hfailed _ _ hongoing).elim
  | statusSet => exact Nat.add_le_add_right (Nat.zero_le _) _
  | stockMoved => exact Nat.add_le_add_right (sources_afterStock _ _ o) _
  | @shipped l courier year shipment shipments hinsert =>
    obtain ⟨hnone, hid, -, rfl⟩ := Shipping.insertShipment_eq_some hinsert
    have htype := eventType_of_shipping hsound.1.1
    have hnew : sources o [.running .shipping l (.inserted shipment)] = 0 :=
      sources_shipmentCreated shipment o
    have hold : sources o [.running .shipping l .unshipped] =
        if l.payload.orderId = o then 1 else 0 := by
      simp [sources, List.countP_singleton, about, htype]
    rw [hnew, hold]
    show 0 + (shipmentsOf (d.shipments.insert shipment.2) o).length ≤ _
    rw [Shipping.shipmentsOf_insert, hid, List.length_append]
    split_ifs with ho
    · rw [List.length_singleton]
      omega
    · simp
  | shipRefused => exact (hfailed _ _ hongoing).elim
  | refreshed => exact Nat.le_refl _
  | announced => exact Nat.add_le_add_right (Nat.le_of_eq (sources_exchange _ o)) _
  | runningFailed => exact (hfailed _ _ hongoing).elim

/-- What holds as long as nothing has failed. -/
structure State.Calm (d : State) : Prop where
  inv : d.Inv
  fits : d.Fits
  sorted : d.Sorted
  ongoing : ∀ w ∈ d.flight, w.Ongoing ∨ ∃ id order, w = .cancelling id order
  /-- An order has a shipment, or one piece of work that may lead to it. -/
  once : ∀ o, sources o d.flight + (shipmentsOf d.shipments o).length ≤ 1
  numbered : ∀ row ∈ d.shipments.rows,
    ∃ year, row.2.trackingNumber = Shipping.trackingNumber year row.1

theorem calm_empty : State.empty.Calm where
  inv := inv_empty
  fits := fun w hw => by cases hw
  sorted := fun w hw => by cases hw
  ongoing := fun w hw => by cases hw
  once := fun o => Nat.zero_le 1
  numbered := fun row hrow => by cases hrow

/-- The unique indexes let every shipment through. -/
theorem State.Calm.insertShipment {d : State} (hcalm : d.Calm) {l : Letter}
    (hw : .running .shipping l .unshipped ∈ d.flight) (courier : String) (year : Nat) :
    ∃ r, insertShipment d.shipments l.payload.orderId courier year = some r := by
  have htype := eventType_of_shipping (hcalm.inv.sound _ hw).1.1
  have hpos : 0 < d.flight.countP (Work.owes .shipping .stockReserved l.payload.orderId) := by
    apply List.countP_pos_iff.mpr
    exact ⟨_, hw, by simp [about, htype]⟩
  have honce := hcalm.once l.payload.orderId
  have hnone : shipmentsOf d.shipments l.payload.orderId = [] := by
    apply List.length_eq_zero_iff.mp
    unfold sources at honce
    omega
  have hfree : ∀ row ∈ d.shipments.rows,
      row.2.trackingNumber ≠ Shipping.trackingNumber year d.shipments.next := by
    intro row hrow heq
    obtain ⟨year', hnumber⟩ := hcalm.numbered row hrow
    have hid := Shipping.trackingNumber_injective (hnumber.symm.trans heq)
    have hlt := d.shipments.bounded row hrow
    omega
  unfold Shipping.insertShipment
  exact ⟨_, if_pos ⟨hnone, hfree⟩⟩

theorem ongoing_afterStock {l : Letter} {phase : Phase} {w : Work} (h : w ∈ afterStock l phase) :
    w.Ongoing := by
  unfold afterStock at h
  split at h
  · split at h
    · rw [List.mem_singleton.mp h]
      trivial
    · cases h
  · rw [List.mem_singleton.mp h]
    trivial

/-- A step that does not fail leaves nothing to retry. -/
theorem State.Calm.ongoing_advance {d e : State} (hcalm : d.Calm) {w : Work} (hw : w ∈ d.flight)
    {m : Move} (hm : m ≠ .fail) {new : List Work} (h : advance d w m = some (e, new)) :
    ∀ b ∈ new, b.Ongoing := by
  intro b hb
  have hsingleton : ∀ x : Work, b ∈ [x] → x.Ongoing → b.Ongoing := by
    intro x hb hx
    rw [List.mem_singleton.mp hb]
    exact hx
  cases advance_advanced h with
  | cancelled => exact hsingleton _ hb trivial
  | cancelFailed => exact absurd rfl hm
  | requested => exact ongoing_exchange hb
  | requestFailed => exact absurd rfl hm
  | republished => exact ongoing_exchange hb
  | orderRead =>
    obtain ⟨status, -, rfl⟩ := mem_readOrder hb
    trivial
  | shipmentRead =>
    obtain ⟨-, ⟨shipment, -, rfl⟩ | rfl⟩ := mem_readShipment hb
    · trivial
    · trivial
  | unhandled => cases hb
  | stockRead => exact ongoing_afterStock hb
  | queuedFailed => exact absurd rfl hm
  | statusSet => cases hb
  | stockMoved => exact ongoing_afterStock hb
  | shipped => exact hsingleton _ hb trivial
  | @shipRefused l courier year =>
    obtain ⟨r, hr⟩ := hcalm.insertShipment hw courier year
    simp only [advance, hr] at h
    split_ifs at h
    have hinserted : [Work.running .shipping l (.inserted r.1)] = [failed .shipping l] :=
      congrArg Prod.snd (Option.some.inj h)
    rw [← hinserted] at hb
    exact hsingleton _ hb trivial
  | refreshed => exact hsingleton _ hb trivial
  | announced => exact ongoing_exchange hb
  | runningFailed => exact absurd rfl hm

/-- A shipment is numbered by its id. -/
theorem numbered_advanced {d e : State} {w : Work} {m : Move} {new : List Work}
    (hnumbered : ∀ row ∈ d.shipments.rows,
      ∃ year, row.2.trackingNumber = Shipping.trackingNumber year row.1)
    (h : Advanced d w m e new) : ∀ row ∈ e.shipments.rows,
      ∃ year, row.2.trackingNumber = Shipping.trackingNumber year row.1 := by
  cases h with
  | @shipped l courier year shipment shipments hinsert =>
    intro row hrow
    have hnumber : shipment.2.trackingNumber = Shipping.trackingNumber year d.shipments.next := by
      unfold insertShipment at hinsert
      dsimp only at hinsert
      split_ifs at hinsert
      cases hinsert
      rfl
    obtain ⟨-, -, -, rfl⟩ := Shipping.insertShipment_eq_some hinsert
    rcases List.mem_append.mp hrow with hold | hnew
    · exact hnumbered row hold
    · rw [List.mem_singleton.mp hnew]
      exact ⟨year, hnumber⟩
  | _ => exact hnumbered

theorem work_calm {d e : State} {i : Nat} {m : Move} (hcalm : d.Calm)
    (hsmooth : Smooth d (.work i m)) (h : step d (.work i m) = some e) : e.Calm := by
  obtain ⟨w, t, new, hw, hadv, rfl⟩ := step_work_eq_some h
  have hmem := List.mem_of_getElem? hw
  have hadvanced := advance_advanced hadv
  have hnew := hcalm.ongoing_advance hmem hsmooth.ne_fail hadv
  have hnumbered := numbered_advanced hcalm.numbered hadvanced
  refine ⟨step_inv hcalm.inv hsmooth.announced h, step_fits hcalm.fits h,
    step_sorted hcalm.sorted hsmooth.2 h, ?_, ?_, hnumbered⟩
  · intro b hb
    cases Pool.mem_of_mem_replace hb with
    | inl hold => exact hcalm.ongoing b hold
    | inr hadded => exact .inl (hnew b hadded)
  · intro o
    have hcount := sources_replace hw new o
    have hle := advanced_sources (hcalm.inv.sound w hmem) hnew hadvanced o
    have honce := hcalm.once o
    show sources o (Pool.replace d.flight i new) + (shipmentsOf t.shipments o).length ≤ 1
    omega

/-- Requests do not disturb the work in flight. -/
theorem step_calm {d e : State} {a : Label} (hcalm : d.Calm) (hsmooth : Smooth d a)
    (h : step d a = some e) : e.Calm := by
  have hinv := step_inv hcalm.inv hsmooth.announced h
  have hfits := step_fits hcalm.fits h
  have hsorted := step_sorted hcalm.sorted hsmooth.2 h
  have hadded : ∀ new : List Work, (∀ w ∈ new, w.Ongoing ∨ ∃ id order, w = .cancelling id order) →
      ∀ w ∈ d.flight ++ new, w.Ongoing ∨ ∃ id order, w = .cancelling id order := by
    intro new hnew w hw
    cases List.mem_append.mp hw with
    | inl hold => exact hcalm.ongoing w hold
    | inr hnext => exact hnew w hnext
  cases step_stepped h with
  | refused => exact hcalm
  | @created customerId payload order hnew =>
    refine ⟨hinv, hfits, hsorted, ?_, fun o => ?_, hcalm.numbered⟩
    · apply hadded
      intro w hw
      rw [List.mem_singleton.mp hw]
      exact .inl trivial
    · have honce := hcalm.once o
      show sources o (d.flight ++ [.requested (Orders.orderCreated d.orders.next order)]) +
        (shipmentsOf d.shipments o).length ≤ 1
      rw [sources_append]
      by_cases ho : o = d.orders.next
      · have hblank : (d.saga o).Blank := by
          apply (hcalm.inv.shape o).blank_of_none
          rw [ho]
          exact statusOf_next d.orders
        have hcreating := hblank.creating
        have hshipping := hblank.shipping
        have hshipments := hblank.shipments
        simp only [State.saga, State.owed] at hcreating hshipping hshipments
        have hzero : sources o d.flight = 0 := by simp [sources, hcreating, hshipping]
        have hcount : [Work.requested (Orders.orderCreated d.orders.next order)].countP
            (Work.owes .inventory .orderCreated o) ≤ 1 := List.countP_le_length
        have hother : [Work.requested (Orders.orderCreated d.orders.next order)].countP
            (Work.owes .shipping .stockReserved o) = 0 := by
          simp [due, about, Orders.orderCreated, Payload.eventType]
        unfold sources at hzero ⊢
        omega
      · have hne : (Orders.orderCreated d.orders.next order).orderId ≠ o := Ne.symm ho
        have hother : sources o [.requested (Orders.orderCreated d.orders.next order)] = 0 := by
          simp [sources, hne]
        rw [hother]
        exact honce
  | loaded =>
    refine ⟨hinv, hfits, hsorted, ?_, fun o => ?_, hcalm.numbered⟩
    · apply hadded
      intro w hw
      exact .inr ⟨_, _, List.mem_singleton.mp hw⟩
    · have honce := hcalm.once o
      rw [sources_append]
      exact honce
  | productCreated => exact ⟨hinv, hfits, hsorted, hcalm.ongoing, hcalm.once, hcalm.numbered⟩
  | @shipmentUpdated id status shipment hget =>
    refine ⟨hinv, hfits, hsorted, ?_, fun o => ?_, ?_⟩
    · apply hadded
      intro w hw
      split_ifs at hw
      · rw [List.mem_singleton.mp hw]
        exact .inl trivial
      · cases hw
    · have honce := hcalm.once o
      have hlength := Shipping.length_shipmentsOf_updateStatus d.shipments id status o
      have hnone : sources o
          (if status = .delivered then [.requested (Shipping.shipmentDelivered shipment)] else []) =
            0 := by
        split_ifs
        · simp [sources, due_of_unbound (unbound_shipmentDelivered shipment)]
        · rfl
      rw [sources_append, hnone, hlength]
      exact honce
    · intro row hrow
      obtain ⟨old, hold, hid, -, hnumber⟩ := Shipping.mem_updateStatus hrow
      rw [hid, hnumber]
      exact hcalm.numbered old hold
  | worked => exact work_calm hcalm hsmooth h

def Label.cancels : Label → Bool
  | .cancelOrder .. => true
  | _ => false

/-- Nobody has asked for a cancel, so no reservation is given back. -/
structure State.Uncancelled (d : State) : Prop where
  ongoing : ∀ w ∈ d.flight, w.Ongoing
  quiet : ∀ o, ∀ w ∈ d.flight, w.owes .inventory .orderCancelled o = false
  kept : ∀ o, ¬ (d.saga o).Released

theorem uncancelled_empty : State.empty.Uncancelled where
  ongoing := fun w hw => by cases hw
  quiet := fun o w hw => by cases hw
  kept := fun o hreleased => hreleased.status rfl

theorem owes_of_mem_exchange {l : Letter} {w : Work} {q : Queue} {t : EventType} {o : Int}
    (hw : w ∈ exchange l) (h : due q t o l.payload = false) : w.owes q t o = false := by
  have hcount : (exchange l).countP (Work.owes q t o) = 0 := by
    rw [countP_exchange, h]
    rfl
  have hnot := List.countP_eq_zero.mp hcount w hw
  simpa using hnot

theorem due_answer {p p' : Payload} {ret : Inventory.Ret} (h : answer p ret = some p') (q : Queue)
    (o : Int) : due q .orderCancelled o p' = false := by
  unfold answer at h
  split at h
  · cases h
    split_ifs <;> simp [due, about, Payload.eventType]
  · split_ifs at h
    cases h
    simp [due, about, Payload.eventType]
  · cases h

/-- Only the cancel route publishes `OrderCancelled`. -/
theorem advanced_quiet {d e : State} {w : Work} {m : Move} {new : List Work} {o : Int}
    (hw : w.Ongoing) (hquiet : w.owes .inventory .orderCancelled o = false)
    (hnew : ∀ b ∈ new, b.Ongoing) (h : Advanced d w m e new) :
    ∀ b ∈ new, b.owes .inventory .orderCancelled o = false := by
  intro b hb
  have hsingleton : ∀ x : Work, b ∈ [x] → x.owes .inventory .orderCancelled o = false →
      b.owes .inventory .orderCancelled o = false := by
    intro x hb hx
    rw [List.mem_singleton.mp hb]
    exact hx
  have hfailed : ∀ q l, b ∈ [failed q l] → b.Ongoing → False := by
    intro q l hb hongoing
    rw [List.mem_singleton.mp hb] at hongoing
    exact not_ongoing_failed q l hongoing
  have hafter : ∀ l phase, (Work.queued .inventory l).owes .inventory .orderCancelled o = false →
      b ∈ afterStock l phase → b.owes .inventory .orderCancelled o = false := by
    intro l phase hl hb
    unfold afterStock at hb
    split at hb
    · split at hb
      · rename_i p hp
        exact hsingleton _ hb (due_answer hp _ o)
      · cases hb
    · exact hsingleton _ hb hl
  cases h with
  | cancelled => exact hw.elim
  | cancelFailed => exact hw.elim
  | requested => exact owes_of_mem_exchange hb hquiet
  | requestFailed => cases hb
  | republished => exact hw.elim
  | orderRead =>
    obtain ⟨status, -, rfl⟩ := mem_readOrder hb
    rfl
  | shipmentRead =>
    obtain ⟨-, ⟨shipment, -, rfl⟩ | rfl⟩ := mem_readShipment hb
    · simp [due_shipmentCreated]
    · rfl
  | unhandled => cases hb
  | stockRead => exact hafter _ _ hquiet hb
  | queuedFailed => exact (hfailed _ _ hb (hnew b hb)).elim
  | statusSet => cases hb
  | stockMoved => exact hafter _ _ hquiet hb
  | shipped => exact hsingleton _ hb (by simp [due_shipmentCreated])
  | shipRefused => exact (hfailed _ _ hb (hnew b hb)).elim
  | refreshed => exact hsingleton _ hb (by simp [due_shipmentCreated])
  | announced => exact owes_of_mem_exchange hb hquiet
  | runningFailed => exact (hfailed _ _ hb (hnew b hb)).elim

/-- Requests other than cancels start no cancel, and neither does the work in flight. -/
theorem step_quiet {d e : State} {a : Label} (hcalm : d.Calm) (hd : d.Uncancelled)
    (hsmooth : Smooth d a) (hcancels : a.cancels = false) (h : step d a = some e) :
    ∀ w ∈ e.flight, w.Ongoing ∧ ∀ o, w.owes .inventory .orderCancelled o = false := by
  have hadded : ∀ new : List Work,
      (∀ w ∈ new, w.Ongoing ∧ ∀ o, w.owes .inventory .orderCancelled o = false) →
        ∀ w, w ∈ d.flight ∨ w ∈ new →
          w.Ongoing ∧ ∀ o, w.owes .inventory .orderCancelled o = false := by
    intro new hnew w hw
    cases hw with
    | inl hold => exact ⟨hd.ongoing w hold, fun o => hd.quiet o w hold⟩
    | inr hnext => exact hnew w hnext
  intro b hb
  cases step_stepped h with
  | refused => exact hadded [] (by simp) b (.inl hb)
  | created =>
    refine hadded _ ?_ b (List.mem_append.mp hb)
    intro w hw
    rw [List.mem_singleton.mp hw]
    exact ⟨trivial, fun o => by simp [due, about, Orders.orderCreated, Payload.eventType]⟩
  | loaded => cases hcancels
  | productCreated => exact hadded [] (by simp) b (.inl hb)
  | @shipmentUpdated id status shipment hget =>
    refine hadded _ ?_ b (List.mem_append.mp hb)
    intro w hw
    split_ifs at hw
    · rw [List.mem_singleton.mp hw]
      exact ⟨trivial, fun o => due_of_unbound (unbound_shipmentDelivered shipment) _ _ o⟩
    · cases hw
  | worked =>
    obtain ⟨w, t, new, hw, hadv, heq⟩ := step_work_eq_some h
    have hmem := List.mem_of_getElem? hw
    have hongoing := hcalm.ongoing_advance hmem hsmooth.ne_fail hadv
    rw [heq] at hb
    refine hadded new ?_ b (Pool.mem_of_mem_replace hb)
    intro x hx
    refine ⟨hongoing x hx, fun o => ?_⟩
    exact advanced_quiet (hd.ongoing w hmem) (hd.quiet o w hmem) hongoing
      (advance_advanced hadv) x hx

theorem step_uncancelled {d e : State} {a : Label} (hcalm : d.Calm) (hd : d.Uncancelled)
    (hsmooth : Smooth d a) (hcancels : a.cancels = false) (h : step d a = some e) :
    e.Uncancelled := by
  have hquiet := step_quiet hcalm hd hsmooth hcancels h
  refine ⟨fun w hw => (hquiet w hw).1, fun o w hw => (hquiet w hw).2 o, fun o => ?_⟩
  have hidle : ¬ d.Releasing o := by
    rintro ⟨customerId, retry, phase, hmem⟩
    have howes := hd.quiet o _ hmem
    simp [about, Payload.eventType, Payload.orderId] at howes
  have hs := step_saga hcalm.inv.sound hsmooth.announced h o
  rw [eq_false hidle] at hs
  exact (hcalm.inv.shape o).not_released (hd.kept o) hs

theorem idle_inOrder {d : State} (h : Idle workSmoothly (fun _ => True) d) :
    Idle workInOrder Succeeds d := by
  intro m hm
  unfold workInOrder restrict
  split_ifs with hascending
  · exact (restrict_eq_none (smooth_of_ascending hm hascending)).mp (h m trivial)
  · rfl

theorem State.Calm.atRest {d : State} (hcalm : d.Calm)
    (hidle : Idle workSmoothly (fun _ => True) d) : d.AtRest := by
  apply List.eq_nil_iff_forall_not_mem.mpr
  intro w hw
  obtain ⟨q, l, rfl⟩ := dead_of_idle hcalm.fits hcalm.sorted (idle_inOrder hidle) w hw
  cases hcalm.ongoing _ hw with
  | inl hongoing => exact hongoing
  | inr hcancelling =>
    obtain ⟨id, order, heq⟩ := hcancelling
    cases heq

/-- If nothing fails and rows are locked in ascending order, every schedule of the work in flight
comes to rest, and no unique index refuses a shipment on the way. Without cancels each order is
then cancelled everywhere, or reserved and shipped. -/
theorem orders_complete {acts : List Label} {d : State} (hsmooth : Meets step Smooth .empty acts)
    (hrun : exec step .empty acts = some d) :
    (∃ ms e, exec workSmoothly d ms = some e ∧ Idle workSmoothly (fun _ => True) e) ∧
      ∀ ms e, exec workSmoothly d ms = some e → Settles workSmoothly e ∧
        (∀ l courier year, .running .shipping l .unshipped ∈ e.flight →
          (insertShipment e.shipments l.payload.orderId courier year).isSome) ∧
        (Idle workSmoothly (fun _ => True) e →
          e.AtRest ∧ ((∀ a ∈ acts, a.cancels = false) → e.Consistent)) := by
  let I : State → Prop := fun s =>
    s.Calm ∧ ((∀ a ∈ acts, a.cancels = false) → s.Uncancelled)
  have hd : I d := by
    refine ⟨exec_invariant_of_meets State.Calm (fun _ _ _ => step_calm) calm_empty hsmooth hrun, ?_⟩
    intro hcancels
    have hboth : d.Calm ∧ d.Uncancelled := by
      refine exec_invariant_of_meets (fun s => s.Calm ∧ s.Uncancelled) ?_
        ⟨calm_empty, uncancelled_empty⟩ (hsmooth.and (meets_of_forall _ hcancels)) hrun
      intro s a t hs ha ht
      exact ⟨step_calm hs.1 ha.1 ht, step_uncancelled hs.1 hs.2 ha.1 ha.2 ht⟩
    exact hboth.2
  have hdecreasing := InvImage.wf State.flight (Pool.wellFounded_consumed wellFounded_below)
  have hstep : ∀ s m t, I s → workSmoothly s m = some t →
      I t ∧ Pool.Consumed Below s.flight t.flight := by
    intro s m t hs ht
    obtain ⟨ha, ht⟩ := restrict_eq_some.mp ht
    refine ⟨⟨step_calm hs.1 ha ht, fun hcancels => ?_⟩, work_consumed hs.1.fits ht⟩
    exact step_uncancelled hs.1 (hs.2 hcancels) ha rfl ht
  refine ⟨?_, fun ms e hms => ?_⟩
  · obtain ⟨ms, e, -, hms, -, hidle⟩ := exists_idle I hdecreasing hstep (fun _ => True) hd
    exact ⟨ms, e, hms, hidle⟩
  · have he : I e := exec_invariant I (fun s m t hs ht => (hstep s m t hs ht).1) hd hms
    refine ⟨settles_of_decreasing I hdecreasing hstep he, ?_, fun hidle => ?_⟩
    · intro l courier year hl
      exact Option.isSome_iff_exists.mpr (he.1.insertShipment hl courier year)
    have hrest := he.1.atRest hidle
    refine ⟨hrest, fun hcancels => ?_⟩
    exact (he.1.inv.consistent_iff hrest).mpr (he.2 hcancels).kept

theorem orders_complete_secondWaits :
    ∃ d, exec step .empty secondWaits = some d ∧
      ∃ ms e, exec workSmoothly d ms = some e ∧ e.AtRest ∧ e.Consistent := by
  have hrun : (exec step .empty secondWaits).isSome := by decide +kernel
  have hsmooth : Meets step Smooth .empty secondWaits := by decide +kernel
  obtain ⟨d, hd⟩ := Option.isSome_iff_exists.mp hrun
  obtain ⟨⟨ms, e, hms, hidle⟩, hall⟩ := orders_complete hsmooth hd
  obtain ⟨-, -, hend⟩ := hall ms e hms
  obtain ⟨hrest, hconsistent⟩ := hend hidle
  exact ⟨d, hd, ms, e, hms, hrest, hconsistent (by simp [secondWaits, Label.cancels])⟩

end OrderMesh.Platform
