import OrderMesh.Inventory.Service
import OrderMesh.Order.Service

namespace OrderMesh.Platform

open Inventory Orders

@[ext] structure Saga where
  status : Option OrderStatus
  /-- The rows a reservation of the order writes. -/
  lines : List InventoryReservation
  rows : List InventoryReservation
  shipments : Nat
  /-- `OrderCreated` at inventory. -/
  creating : Nat
  /-- `OrderCancelled` at inventory. -/
  cancelling : Nat
  /-- `StockReserved` at order. -/
  confirming : Nat
  /-- `StockUnavailable` at order. -/
  refusing : Nat
  /-- `StockReserved` at shipping. -/
  shipping : Nat
  /-- `ShipmentCreated` at order. -/
  closing : Nat

/-- What can happen to one order; `releasing` says whether some handler of
`OrderCancelled` has read rows and is about to delete them. -/
inductive Saga.Step (releasing : Prop) (s : Saga) : Saga → Prop
  | idle : Step releasing s s
  | created {lines} (hnew : s.status = none) (hlines : lines ≠ []) :
      Step releasing s
        { s with status := some .pending, lines := lines, creating := s.creating + 1 }
  | cancelled (hold : s.status ≠ none) :
      Step releasing s { s with status := some .cancelled, cancelling := s.cancelling + 1 }
  | reserved {n} (h : s.creating = n + 1) :
      Step releasing s { s with
        rows := s.rows ++ s.lines
        creating := n
        confirming := s.confirming + 1
        shipping := s.shipping + 1 }
  | alreadyReserved {n} (h : s.creating = n + 1) (hrows : s.rows ≠ []) :
      Step releasing s { s with
        creating := n
        confirming := s.confirming + 1
        shipping := s.shipping + 1 }
  | unavailable {n} (h : s.creating = n + 1) :
      Step releasing s { s with creating := n, refusing := s.refusing + 1 }
  | released {n} (h : s.cancelling = n + 1) (hreading : releasing) :
      Step releasing s { s with rows := [], cancelling := n }
  | nothingToRelease {n} (h : s.cancelling = n + 1) (hrows : s.rows = []) :
      Step releasing s { s with cancelling := n }
  | confirmed {n} (h : s.confirming = n + 1) :
      Step releasing s { s with status := some .confirmed, confirming := n }
  | refused {n} (h : s.refusing = n + 1) :
      Step releasing s { s with status := some .cancelled, refusing := n }
  | closed {n} (h : s.closing = n + 1) :
      Step releasing s { s with status := some .shipped, closing := n }
  | shipped {n} (h : s.shipping = n + 1) (hnone : s.shipments = 0) :
      Step releasing s { s with shipments := 1, shipping := n, closing := s.closing + 1 }
  | alreadyShipped {n} (h : s.shipping = n + 1) (hsome : 0 < s.shipments) :
      Step releasing s { s with shipping := n, closing := s.closing + 1 }
  | retriedByOrder (h : 0 < s.confirming) :
      Step releasing s { s with shipping := s.shipping + 1 }
  | retriedByShipping (h : 0 < s.shipping) :
      Step releasing s { s with confirming := s.confirming + 1 }
  | unannounced {n} (more : Nat) (h : s.closing = n + 1) :
      Step releasing s { s with
        shipping := s.shipping + 1
        closing := n
        confirming := s.confirming + more }

theorem Saga.Step.of_eq {releasing : Prop} {s t u : Saga} (h : Step releasing s t) (heq : u = t) :
    Step releasing s u := heq ▸ h

/-- Not created yet. -/
structure Saga.Blank (s : Saga) : Prop where
  status : s.status = none
  rows : s.rows = []
  shipments : s.shipments = 0
  creating : s.creating = 0
  cancelling : s.cancelling = 0
  confirming : s.confirming = 0
  refusing : s.refusing = 0
  shipping : s.shipping = 0
  closing : s.closing = 0

/-- Inventory has not decided yet. -/
structure Saga.Awaiting (s : Saga) : Prop where
  status : s.status ≠ none
  lines : s.lines ≠ []
  rows : s.rows = []
  shipments : s.shipments = 0
  creating : s.creating = 1
  confirming : s.confirming = 0
  refusing : s.refusing = 0
  shipping : s.shipping = 0
  closing : s.closing = 0

/-- The stock is reserved. The order is on its way to a shipment, and unless a
cancel is on its way to inventory, to the status of one. -/
structure Saga.Granted (s : Saga) : Prop where
  lines : s.lines ≠ []
  rows : s.rows = s.lines
  shipments : s.shipments ≤ 1
  creating : s.creating = 0
  refusing : s.refusing = 0
  shipping : 0 < s.shipments + s.shipping
  status : s.status = some .confirmed ∨ s.status = some .shipped ∨
    (s.status ≠ none ∧ 0 < s.confirming + s.cancelling)

/-- The stock was short. -/
structure Saga.Refused (s : Saga) : Prop where
  rows : s.rows = []
  shipments : s.shipments = 0
  creating : s.creating = 0
  confirming : s.confirming = 0
  shipping : s.shipping = 0
  closing : s.closing = 0
  status : s.status = some .cancelled ∨ (s.status ≠ none ∧ 0 < s.refusing)

/-- The reserved stock was given back, but the order is still shipped. -/
structure Saga.Released (s : Saga) : Prop where
  status : s.status ≠ none
  lines : s.lines ≠ []
  rows : s.rows = []
  shipments : s.shipments ≤ 1
  creating : s.creating = 0
  refusing : s.refusing = 0
  shipping : 0 < s.shipments + s.shipping

inductive Saga.Shape (s : Saga) : Prop
  | blank (h : s.Blank)
  | awaiting (h : s.Awaiting)
  | granted (h : s.Granted)
  | refused (h : s.Refused)
  | released (h : s.Released)

variable {releasing : Prop} {s t : Saga}

theorem Saga.Granted.status_ne_none (h : s.Granted) : s.status ≠ none := by
  rcases h.status with h | h | h
  · rw [h]; exact Option.some_ne_none _
  · rw [h]; exact Option.some_ne_none _
  · exact h.1

theorem Saga.Refused.status_ne_none (h : s.Refused) : s.status ≠ none := by
  rcases h.status with h | h
  · rw [h]; exact Option.some_ne_none _
  · exact h.1

theorem Saga.Granted.rows_ne_nil (h : s.Granted) : s.rows ≠ [] := h.rows ▸ h.lines

theorem Saga.Shape.blank_of_none (h : s.Shape) (hnone : s.status = none) : s.Blank := by
  cases h with
  | blank h => exact h
  | awaiting h => exact absurd hnone h.status
  | granted h => exact absurd hnone h.status_ne_none
  | refused h => exact absurd hnone h.status_ne_none
  | released h => exact absurd hnone h.status

theorem Saga.Blank.step (h : s.Blank) (hs : Step releasing s t) : t.Blank ∨ t.Awaiting := by
  obtain ⟨hstatus, hrows, hshipments, hcreating, hcancelling, hconfirming, hrefusing, hshipping,
    hclosing⟩ := h
  cases hs with
  | idle => exact .inl ⟨hstatus, hrows, hshipments, hcreating, hcancelling, hconfirming, hrefusing,
      hshipping, hclosing⟩
  | created hnew hlines =>
    exact .inr ⟨Option.some_ne_none _, hlines, hrows, hshipments, by simp [hcreating], hconfirming,
      hrefusing, hshipping, hclosing⟩
  | cancelled hold => exact absurd hstatus hold
  | alreadyShipped hn => omega
  | _ => omega

theorem Saga.Awaiting.step (h : s.Awaiting) (hs : Step releasing s t) :
    t.Awaiting ∨ t.Granted ∨ t.Refused := by
  obtain ⟨hstatus, hlines, hrows, hshipments, hcreating, hconfirming, hrefusing, hshipping,
    hclosing⟩ := h
  cases hs with
  | idle => exact .inl ⟨hstatus, hlines, hrows, hshipments, hcreating, hconfirming, hrefusing,
      hshipping, hclosing⟩
  | created hnew => exact absurd hnew hstatus
  | cancelled => exact .inl ⟨Option.some_ne_none _, hlines, hrows, hshipments, hcreating,
      hconfirming, hrefusing, hshipping, hclosing⟩
  | @reserved n hn =>
    have hzero : n = 0 := by omega
    refine .inr (.inl ⟨hlines, by simp [hrows], by simp [hshipments], hzero, hrefusing, ?_, ?_⟩)
    · dsimp only; omega
    · exact .inr (.inr ⟨hstatus, by dsimp only; omega⟩)
  | alreadyReserved hn hheld => exact absurd hrows hheld
  | @unavailable n hn =>
    have hzero : n = 0 := by omega
    exact .inr (.inr ⟨hrows, hshipments, hzero, hconfirming, hshipping, hclosing,
      .inr ⟨hstatus, by dsimp only; omega⟩⟩)
  | released => exact .inl ⟨hstatus, hlines, rfl, hshipments, hcreating, hconfirming, hrefusing,
      hshipping, hclosing⟩
  | nothingToRelease => exact .inl ⟨hstatus, hlines, hrows, hshipments, hcreating, hconfirming,
      hrefusing, hshipping, hclosing⟩
  | _ => omega

theorem Saga.Granted.step (h : s.Granted) (hs : Step releasing s t) :
    t.Granted ∨ (releasing ∧ t.Released) := by
  have hsome := h.status_ne_none
  have hheld := h.rows_ne_nil
  obtain ⟨hlines, hrows, hshipments, hcreating, hrefusing, hshipping, hstatus⟩ := h
  cases hs with
  | idle => exact .inl ⟨hlines, hrows, hshipments, hcreating, hrefusing, hshipping, hstatus⟩
  | created hnew => exact absurd hnew hsome
  | cancelled => exact .inl ⟨hlines, hrows, hshipments, hcreating, hrefusing, hshipping,
      .inr (.inr ⟨Option.some_ne_none _, by dsimp only; omega⟩)⟩
  | released hn hreading => exact .inr ⟨hreading, hsome, hlines, rfl, hshipments, hcreating,
      hrefusing, hshipping⟩
  | nothingToRelease hn hnil => exact absurd hnil hheld
  | confirmed => exact .inl ⟨hlines, hrows, hshipments, hcreating, hrefusing, hshipping, .inl rfl⟩
  | closed => exact .inl ⟨hlines, hrows, hshipments, hcreating, hrefusing, hshipping,
      .inr (.inl rfl)⟩
  | shipped =>
    exact .inl ⟨hlines, hrows, Nat.le_refl 1, hcreating, hrefusing, by dsimp only; omega, hstatus⟩
  | alreadyShipped hn hpos => exact .inl ⟨hlines, hrows, hshipments, hcreating, hrefusing,
      Nat.lt_of_lt_of_le hpos (Nat.le_add_right ..), hstatus⟩
  | retriedByOrder =>
    exact .inl ⟨hlines, hrows, hshipments, hcreating, hrefusing, by dsimp only; omega, hstatus⟩
  | retriedByShipping =>
    refine .inl ⟨hlines, hrows, hshipments, hcreating, hrefusing, hshipping, ?_⟩
    exact hstatus.imp_right (Or.imp_right fun h => ⟨h.1, by dsimp only; omega⟩)
  | unannounced more =>
    refine .inl ⟨hlines, hrows, hshipments, hcreating, hrefusing, by dsimp only; omega, ?_⟩
    refine hstatus.imp_right (Or.imp_right fun h => ⟨h.1, ?_⟩)
    have hpos := h.2
    simp only
    omega
  | _ => omega

theorem Saga.Refused.step (h : s.Refused) (hs : Step releasing s t) : t.Refused := by
  have hsome := h.status_ne_none
  obtain ⟨hrows, hshipments, hcreating, hconfirming, hshipping, hclosing, hstatus⟩ := h
  cases hs with
  | idle => exact ⟨hrows, hshipments, hcreating, hconfirming, hshipping, hclosing, hstatus⟩
  | created hnew => exact absurd hnew hsome
  | cancelled => exact ⟨hrows, hshipments, hcreating, hconfirming, hshipping, hclosing, .inl rfl⟩
  | released => exact ⟨rfl, hshipments, hcreating, hconfirming, hshipping, hclosing, hstatus⟩
  | nothingToRelease => exact ⟨hrows, hshipments, hcreating, hconfirming, hshipping, hclosing,
      hstatus⟩
  | refused => exact ⟨hrows, hshipments, hcreating, hconfirming, hshipping, hclosing, .inl rfl⟩
  | _ => omega

theorem Saga.Released.step (h : s.Released) (hs : Step releasing s t) : t.Released := by
  obtain ⟨hstatus, hlines, hrows, hshipments, hcreating, hrefusing, hshipping⟩ := h
  have hset : ∀ status : OrderStatus, some status ≠ none := fun _ => Option.some_ne_none _
  cases hs with
  | idle => exact ⟨hstatus, hlines, hrows, hshipments, hcreating, hrefusing, hshipping⟩
  | created hnew => exact absurd hnew hstatus
  | cancelled => exact ⟨hset _, hlines, hrows, hshipments, hcreating, hrefusing, hshipping⟩
  | released => exact ⟨hstatus, hlines, rfl, hshipments, hcreating, hrefusing, hshipping⟩
  | nothingToRelease => exact ⟨hstatus, hlines, hrows, hshipments, hcreating, hrefusing, hshipping⟩
  | confirmed => exact ⟨hset _, hlines, hrows, hshipments, hcreating, hrefusing, hshipping⟩
  | closed => exact ⟨hset _, hlines, hrows, hshipments, hcreating, hrefusing, hshipping⟩
  | shipped =>
    exact ⟨hstatus, hlines, hrows, Nat.le_refl 1, hcreating, hrefusing, by dsimp only; omega⟩
  | alreadyShipped hn hpos => exact ⟨hstatus, hlines, hrows, hshipments, hcreating, hrefusing,
      Nat.lt_of_lt_of_le hpos (Nat.le_add_right ..)⟩
  | retriedByOrder =>
    exact ⟨hstatus, hlines, hrows, hshipments, hcreating, hrefusing, by dsimp only; omega⟩
  | retriedByShipping => exact ⟨hstatus, hlines, hrows, hshipments, hcreating, hrefusing, hshipping⟩
  | unannounced =>
    exact ⟨hstatus, hlines, hrows, hshipments, hcreating, hrefusing, by dsimp only; omega⟩
  | _ => omega

theorem Saga.Shape.step (h : s.Shape) (hs : Step releasing s t) : t.Shape := by
  cases h with
  | blank h => exact (h.step hs).elim .blank .awaiting
  | awaiting h => exact (h.step hs).elim .awaiting (Or.elim · .granted .refused)
  | granted h => exact (h.step hs).elim .granted fun ht => .released ht.2
  | refused h => exact .refused (h.step hs)
  | released h => exact .released (h.step hs)

/-- The grant is lost, or a cancel on its way to inventory will take it. -/
def Saga.Doomed (s : Saga) : Prop := s.Released ∨ (s.Granted ∧ 0 < s.cancelling)

/-- Only a release of rows that were read takes a grant. -/
theorem Saga.Shape.not_released (h : s.Shape) (hnot : ¬ s.Released) (hs : Step False s t) :
    ¬ t.Released := by
  intro ht
  have hsome := ht.status
  have hpos := ht.shipping
  have hnil := ht.rows
  cases h with
  | blank h =>
    rcases h.step hs with ht | ht
    · exact hsome ht.status
    · have := ht.shipments
      have := ht.shipping
      omega
  | awaiting h =>
    rcases h.step hs with ht | ht | ht
    · have := ht.shipments
      have := ht.shipping
      omega
    · exact ht.rows_ne_nil hnil
    · have := ht.shipments
      have := ht.shipping
      omega
  | granted h =>
    rcases h.step hs with ht | ⟨hfalse, -⟩
    · exact ht.rows_ne_nil hnil
    · exact hfalse
  | refused h =>
    have ht := h.step hs
    have := ht.shipments
    have := ht.shipping
    omega
  | released h => exact hnot h

theorem Saga.Doomed.step (h : s.Doomed) (hs : Step releasing s t) : t.Doomed := by
  rcases h with h | ⟨h, hpos⟩
  · exact .inl (h.step hs)
  · rcases h.step hs with ht | ⟨-, ht⟩
    · refine .inr ⟨ht, ?_⟩
      have hheld := h.rows_ne_nil
      have hnil := ht.rows_ne_nil
      cases hs with
      | released => exact absurd rfl hnil
      | nothingToRelease hn hrows => exact absurd hrows hheld
      | cancelled => exact Nat.succ_pos _
      | _ => exact hpos
    · exact .inl ht

/-- Nothing is left to handle. -/
structure Saga.AtRest (s : Saga) : Prop where
  creating : s.creating = 0
  cancelling : s.cancelling = 0
  confirming : s.confirming = 0
  refusing : s.refusing = 0
  shipping : s.shipping = 0

/-- Cancelled, with no reservation and no shipment. -/
structure Saga.Off (s : Saga) : Prop where
  status : s.status = some .cancelled
  rows : s.rows = []
  shipments : s.shipments = 0

/-- Confirmed or shipped, with its reservation and one shipment. -/
structure Saga.On (s : Saga) : Prop where
  status : s.status = some .confirmed ∨ s.status = some .shipped
  rows : s.rows = s.lines
  shipments : s.shipments = 1

theorem Saga.not_on_of_off (h : s.Off) : ¬ s.On := by
  intro hon
  rcases hon.status with hs | hs <;> (rw [h.status] at hs; cases hs)

/-- At rest an order is off or on, unless its grant was lost. -/
theorem Saga.Shape.atRest (h : s.Shape) (hrest : s.AtRest) (hsome : s.status ≠ none) :
    s.Off ∨ s.On ↔ ¬ s.Released := by
  obtain ⟨hcreating, hcancelling, hconfirming, hrefusing, hshipping⟩ := hrest
  constructor
  · rintro (hoff | hon) hreleased
    · have hpos := hreleased.shipping
      have hzero := hoff.shipments
      omega
    · exact hreleased.lines (hon.rows.symm.trans hreleased.rows)
  · intro hnot
    cases h with
    | blank h => exact absurd h.status hsome
    | awaiting h =>
      have hone := h.creating
      omega
    | granted h =>
      right
      refine ⟨?_, h.rows, ?_⟩
      · rcases h.status with hs | hs | ⟨-, hpos⟩
        · exact .inl hs
        · exact .inr hs
        · omega
      · have hle := h.shipments
        have hpos := h.shipping
        omega
    | refused h =>
      left
      refine ⟨?_, h.rows, h.shipments⟩
      rcases h.status with hs | ⟨-, hpos⟩
      · exact hs
      · omega
    | released h => exact absurd h hnot

end OrderMesh.Platform
