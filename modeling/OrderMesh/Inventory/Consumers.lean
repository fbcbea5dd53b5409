import OrderMesh.Inventory.Calls

namespace OrderMesh.Inventory

def onOrderCreated (s : Store) (orderId : Int) (items : List Item) : Payload × Store :=
  let r := reserveForOrder s orderId items
  (if r.1 then .stockReserved orderId items else .stockUnavailable orderId, r.2)

/-- Nothing is published when nothing was released. -/
def onOrderCancelled (s : Store) (orderId : Int) : Option Payload × Store :=
  let r := releaseForOrder s orderId
  (if r.1.isEmpty then none else some (.stockReleased orderId r.1), r.2)

inductive Message
  | orderCreated (orderId : Int) (items : List Item)
  | orderCancelled (orderId : Int)

def handle (s : Store) : Message → Store
  | .orderCreated orderId items => (onOrderCreated s orderId items).2
  | .orderCancelled orderId => (onOrderCancelled s orderId).2

def handleAll (s : Store) (messages : List Message) : Store := messages.foldl handle s

theorem handleAll_cons (s : Store) (m : Message) (ms : List Message) :
    handleAll s (m :: ms) = handleAll (handle s m) ms := rfl

/-- The order has rows, or the stock covers its items. -/
def Store.Grants (s : Store) (orderId : Int) (items : List Item) : Prop :=
  s.reservationsOf orderId ≠ [] ∨ s.Covers items

theorem onOrderCreated_granted {s : Store} {orderId : Int} {items : List Item}
    (h : s.Grants orderId items) :
    onOrderCreated s orderId items = (.stockReserved orderId items,
      if s.reservationsOf orderId = [] then s.reserved orderId items else s) := by
  unfold onOrderCreated
  rw [reserveForOrder_eq]
  by_cases hrows : s.reservationsOf orderId = []
  · have hcov : s.Covers items := h.resolve_left (fun hne => hne hrows)
    simp only [if_pos hrows, if_pos hcov, if_true]
  · simp only [if_neg hrows, if_true]

theorem onOrderCreated_refused {s : Store} {orderId : Int} {items : List Item}
    (h : ¬ s.Grants orderId items) :
    onOrderCreated s orderId items = (.stockUnavailable orderId, s) := by
  unfold onOrderCreated
  obtain ⟨hrows, hcov⟩ := not_or.mp h
  rw [reserveForOrder_eq, if_pos (not_not.mp hrows), if_neg hcov]
  rfl

theorem onOrderCreated_publishes (s : Store) (orderId : Int) (items : List Item) :
    (onOrderCreated s orderId items).1 = .stockReserved orderId items ∨
      (onOrderCreated s orderId items).1 = .stockUnavailable orderId := by
  unfold onOrderCreated
  by_cases h : (reserveForOrder s orderId items).1 = true <;> simp [h]

theorem onOrderCancelled_empty {s : Store} {orderId : Int} (h : s.reservationsOf orderId = []) :
    onOrderCancelled s orderId = (none, s) := by
  unfold onOrderCancelled
  rw [releaseForOrder_eq, if_pos h]
  rfl

theorem productIds_ne_nil {rows : List (Int × InventoryReservation)} (h : rows ≠ []) :
    productIds rows ≠ [] := by
  unfold productIds
  rw [ne_eq, List.dedup_eq_nil, List.map_eq_nil_iff]
  exact h

theorem onOrderCancelled_released {s : Store} {orderId : Int} (h : s.reservationsOf orderId ≠ []) :
    onOrderCancelled s orderId =
      (some (.stockReleased orderId (productIds (s.reservationsOf orderId))),
        s.released orderId) := by
  unfold onOrderCancelled
  rw [releaseForOrder_eq, if_neg h]
  simp [productIds_ne_nil h]

/-- Reserving at least one line writes a row. -/
theorem reserved_ne (s : Store) (orderId : Int) {items : List Item} (h : items ≠ []) :
    s.reserved orderId items ≠ s := by
  intro heq
  have hsnd := reservationsOf_reserved_self s orderId items
  rw [heq] at hsnd
  exact reservationRows_ne_nil orderId h (List.self_eq_append_right.mp hsnd)

/-- After `pre`, the message, and `mid`, handling the message once more changes
no row and publishes what the first handling published. -/
def RedeliveryInvariant (s : Store) (pre : List Message) (orderId : Int) (items : List Item)
    (mid : List Message) : Prop :=
  let first := onOrderCreated (handleAll s pre) orderId items
  let later := handleAll first.2 mid
  onOrderCreated later orderId items = (first.1, later)

/-- A granted order still has its rows; a refused one still cannot be granted. -/
def StillDecided (s : Store) (pre : List Message) (orderId : Int) (items : List Item)
    (mid : List Message) : Prop :=
  let before := handleAll s pre
  let later := handleAll s (pre ++ .orderCreated orderId items :: mid)
  (before.Grants orderId items ∧ (later.reservationsOf orderId ≠ [] ∨ items = [])) ∨
    (¬ before.Grants orderId items ∧ ¬ later.Grants orderId items)

theorem handleAll_split (s : Store) (pre mid : List Message) (orderId : Int)
    (items : List Item) :
    handleAll s (pre ++ .orderCreated orderId items :: mid) =
      handleAll (onOrderCreated (handleAll s pre) orderId items).2 mid := by
  simp [handleAll, handle]

theorem redelivery_invariant_iff (s : Store) (pre : List Message) (orderId : Int)
    (items : List Item) (mid : List Message) :
    RedeliveryInvariant s pre orderId items mid ↔ StillDecided s pre orderId items mid := by
  unfold RedeliveryInvariant StillDecided
  simp only [handleAll_split]
  set before := handleAll s pre
  set later := handleAll (onOrderCreated before orderId items).2 mid
  by_cases hfirst : before.Grants orderId items
  · rw [onOrderCreated_granted hfirst]
    by_cases hagain : later.Grants orderId items
    · rw [onOrderCreated_granted hagain]
      by_cases hrows : later.reservationsOf orderId = []
      · by_cases hitems : items = []
        · subst hitems
          simp [hfirst, hrows, reserved_nil]
        · simp [hfirst, hrows, hitems, reserved_ne later orderId hitems]
      · simp [hfirst, hrows]
    · rw [onOrderCreated_refused hagain]
      have hcov : items ≠ [] := by
        intro hnil
        exact hagain (.inr (by simp [hnil, Store.Covers]))
      have hrows : later.reservationsOf orderId = [] := not_not.mp (not_or.mp hagain).1
      simp [hfirst, hrows, hcov]
  · rw [onOrderCreated_refused hfirst]
    by_cases hagain : later.Grants orderId items
    · rw [onOrderCreated_granted hagain]
      simp [hfirst, hagain]
    · rw [onOrderCreated_refused hagain]
      simp [hfirst, hagain]

/-- Reserved, released by the cancel, and reserved again by the redelivery. -/
theorem redelivery_after_cancel_reserves_again :
    ¬ RedeliveryInvariant ⟨Dict.ofList [(1, ⟨"SKU1", "Widget", 10⟩)], SerialTable.empty⟩ []
      1 [⟨1, 4⟩] [.orderCancelled 1] := by
  unfold RedeliveryInvariant
  decide

/-- An order that still has rows is granted again, and nothing is taken for it. -/
theorem redelivery_of_rows {s : Store} {pre mid : List Message} {orderId : Int} {items : List Item}
    (hg : (handleAll s pre).Grants orderId items)
    (hrows : (handleAll (onOrderCreated (handleAll s pre) orderId items).2 mid).reservationsOf
      orderId ≠ []) : RedeliveryInvariant s pre orderId items mid := by
  have hagain : Store.Grants _ orderId items := .inl hrows
  simp only [RedeliveryInvariant, onOrderCreated_granted hagain, if_neg hrows]
  rw [onOrderCreated_granted hg]

theorem handle_reservationsOf {s : Store} {orderId : Int} (m : Message)
    (hrows : s.reservationsOf orderId ≠ []) (hm : m ≠ .orderCancelled orderId) :
    (handle s m).reservationsOf orderId = s.reservationsOf orderId := by
  cases m with
  | orderCreated o items =>
    exact (Call.reserveForOrder o items).run_reservationsOf hrows (by simp)
  | orderCancelled o =>
    refine (Call.releaseForOrder o).run_reservationsOf hrows fun h => hm ?_
    rw [Call.releaseForOrder.inj h]

/-- Until the order is cancelled, a granted message may be redelivered freely. -/
theorem redelivery_invariant_of_not_cancelled {s : Store} {pre mid : List Message}
    {orderId : Int} {items : List Item} (hg : (handleAll s pre).Grants orderId items)
    (hitems : items ≠ []) (hmid : .orderCancelled orderId ∉ mid) :
    RedeliveryInvariant s pre orderId items mid := by
  refine redelivery_of_rows hg ?_
  rw [onOrderCreated_granted hg]
  have hstart : ∀ t : Store, t.reservationsOf orderId ≠ [] →
      (handleAll t mid).reservationsOf orderId ≠ [] := by
    induction mid with
    | nil => exact fun t ht => ht
    | cons m ms ih =>
      intro t ht
      simp only [List.mem_cons, not_or] at hmid
      rw [handleAll_cons]
      exact ih hmid.2 _ (handle_reservationsOf m ht (Ne.symm hmid.1) ▸ ht)
  apply hstart
  by_cases hrows : (handleAll s pre).reservationsOf orderId = []
  · rw [if_pos hrows]
    exact reservationsOf_reserved_ne_nil _ orderId hitems
  · rwa [if_neg hrows]

end OrderMesh.Inventory
