import OrderMesh.Inventory.Consumers

namespace OrderMesh.Inventory

/-- What is left of every product, the rows of the granted orders and their ids. -/
structure Allocation where
  available : Int → Option Int
  rows : List InventoryReservation
  granted : List Int

/-- Every product of the items exists and has the aggregated quantity left. -/
def Allocation.Fits (a : Allocation) (items : List Item) : Prop :=
  ∀ p ∈ items.map Item.productId, ∃ n, a.available p = some n ∧ demand items p ≤ n

def Allocation.fits (a : Allocation) (items : List Item) : Bool :=
  (items.map Item.productId).all fun p => (a.available p).any fun n => demand items p ≤ n

theorem Allocation.fits_iff (a : Allocation) (items : List Item) :
    a.fits items = true ↔ a.Fits items := by
  simp [Allocation.fits, Allocation.Fits, Option.any_eq_true]

def Allocation.take (a : Allocation) (orderId : Int) (items : List Item) : Allocation :=
  if a.fits items then
    { available := fun p => (a.available p).map fun n => n - demand items p
      rows := a.rows ++ (items.map Item.productId).dedup.map fun p => ⟨p, orderId, demand items p⟩
      granted := a.granted ++ [orderId] }
  else a

def Allocation.takeAll (a : Allocation) (orders : List (Int × List Item)) : Allocation :=
  orders.foldl (fun a order => a.take order.1 order.2) a

/-- The products of the store, before any order. -/
def Allocation.of (s : Store) : Allocation where
  available := fun p => (s.products.get? p).map Product.quantityAvailable
  rows := []
  granted := []

/-- The store holds what the reference program has left and has granted. -/
structure Allocation.Matches (a : Allocation) (s : Store) : Prop where
  available : ∀ p, (s.products.get? p).map Product.quantityAvailable = a.available p
  rows : (s.reservations.rows.map Prod.snd).Perm a.rows
  granted : ∀ r ∈ a.rows, r.orderId ∈ a.granted

theorem Allocation.takeAll_snoc (a : Allocation) (orders : List (Int × List Item))
    (order : Int × List Item) :
    a.takeAll (orders ++ [order]) = (a.takeAll orders).take order.1 order.2 := by
  simp [Allocation.takeAll]

theorem Allocation.granted_take (a : Allocation) (orderId : Int) (items : List Item) :
    (a.take orderId items).granted =
      if a.fits items then a.granted ++ [orderId] else a.granted := by
  unfold Allocation.take
  split_ifs <;> rfl

section Matches

variable {a : Allocation} {s : Store} {orderId : Int}

theorem Allocation.Matches.covers (h : a.Matches s) {items : List Item} :
    a.fits items = true ↔ s.Covers items := by
  rw [a.fits_iff]
  refine forall₂_congr fun p _ => ?_
  rw [← h.available p]
  simp [Option.map_eq_some_iff]

theorem Allocation.Matches.reservationsOf (h : a.Matches s) (hnot : orderId ∉ a.granted) :
    s.reservationsOf orderId = [] := by
  apply List.filter_eq_nil_iff.mpr
  intro r hr horder
  have hmem : r.2 ∈ a.rows := h.rows.mem_iff.mp (List.mem_map_of_mem hr)
  exact hnot (of_decide_eq_true horder ▸ h.granted r.2 hmem)

/-- The rows of a reservation: one for each distinct product, with the aggregated quantity. -/
theorem reservationRows_perm (orderId : Int) (items : List Item) :
    (reservationRows orderId (wantedOf items)).Perm
      ((items.map Item.productId).dedup.map fun p => ⟨p, orderId, demand items p⟩) := by
  have hkeys : (wantedOf items).keys.Perm (items.map Item.productId).dedup := by
    refine (List.perm_ext_iff_of_nodup (wantedOf items).nodup (List.nodup_dedup _)).mpr fun p => ?_
    rw [← Dict.keys, mem_keys_wantedOf, List.mem_dedup]
  have hrows : reservationRows orderId (wantedOf items) =
      (wantedOf items).keys.map fun p => ⟨p, orderId, demand items p⟩ := by
    unfold reservationRows Dict.keys
    rw [List.map_map]
    refine List.map_congr_left fun w hw => ?_
    have hget := ((wantedOf items).get?_eq_some_iff w.1 w.2).mpr hw
    rw [get?_wantedOf] at hget
    split_ifs at hget
    simp [← Option.some.inj hget]
  rw [hrows]
  exact hkeys.map _

/-- Handling an order that has no rows takes it as the reference program does. -/
theorem Allocation.Matches.onOrderCreated (h : a.Matches s) (hnot : orderId ∉ a.granted)
    (items : List Item) :
    (a.take orderId items).Matches (onOrderCreated s orderId items).2 ∧
      (onOrderCreated s orderId items).1 =
        if a.fits items then .stockReserved orderId items else .stockUnavailable orderId := by
  have hrows := h.reservationsOf hnot
  unfold Allocation.take
  by_cases hfits : a.fits items = true
  · have hgrants : s.Grants orderId items := .inr (h.covers.mp hfits)
    rw [onOrderCreated_granted hgrants, if_pos hrows, if_pos hfits, if_pos hfits]
    refine ⟨⟨fun p => ?_, ?_, fun r hr => ?_⟩, rfl⟩
    · rw [get?_reserved]
      dsimp only
      rw [← h.available p]
      cases s.products.get? p <;> rfl
    · have hsnd : (s.reserved orderId items).reservations.rows.map Prod.snd =
          s.reservations.rows.map Prod.snd ++ reservationRows orderId (wantedOf items) :=
        SerialTable.map_snd_rows_insertAll _ _
      rw [hsnd]
      exact h.rows.append (reservationRows_perm orderId items)
    · rcases List.mem_append.mp hr with hr | hr
      · exact List.mem_append_left _ (h.granted r hr)
      · obtain ⟨p, -, rfl⟩ := List.mem_map.mp hr
        exact List.mem_append_right _ (by simp)
  · have hrefused : ¬ s.Grants orderId items :=
      not_or.mpr ⟨not_not.mpr hrows, fun hcov => hfits (h.covers.mpr hcov)⟩
    rw [onOrderCreated_refused hrefused, if_neg hfits, if_neg hfits]
    exact ⟨h, rfl⟩

end Matches

theorem Allocation.matches_of {s : Store} (h : s.reservations.rows = []) :
    (Allocation.of s).Matches s :=
  ⟨fun _ => rfl, by rw [h]; exact .nil, fun r hr => by cases hr⟩

end OrderMesh.Inventory
