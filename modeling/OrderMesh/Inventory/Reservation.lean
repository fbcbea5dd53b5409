import OrderMesh.Inventory.Conservation

namespace OrderMesh.Inventory

/-- Add the quantity to the row of the order and the product, or insert one. -/
def addToRow (reservations : SerialTable InventoryReservation) (orderId : Int) (item : Item) :
    SerialTable InventoryReservation :=
  if (reservations.rows.any fun r => r.2.orderId = orderId ∧ r.2.productId = item.productId) then
    reservations.updateAll fun r =>
      if r.orderId = orderId ∧ r.productId = item.productId then
        { r with quantity := r.quantity + item.quantity }
      else r
  else reservations.insert ⟨item.productId, orderId, item.quantity⟩

/-- Take one item out of the stock, or fail when it is short. -/
def reserveItem (orderId : Int) (s : Store) (item : Item) : Option Store :=
  match s.products.get? item.productId with
  | none => none
  | some product =>
      if product.quantityAvailable < item.quantity then none
      else some {
        products := s.products.modify item.productId fun p => p.add (-item.quantity)
        reservations := addToRow s.reservations orderId item }

/-- The items one at a time; the first shortage rolls back to the first store. -/
def reserveItems (s : Store) (orderId : Int) (items : List Item) : Bool × Store :=
  match items.foldlM (reserveItem orderId) s with
  | none => (false, s)
  | some t => (true, t)

/-- The same tables, when the ids and the order of the reservation rows are ignored. -/
structure Store.SameUpToIds (s t : Store) : Prop where
  products : s.products = t.products
  reservations : (s.reservations.rows.map Prod.snd).Perm (t.reservations.rows.map Prod.snd)

/-- What `reserve_for_order` does for an order without reservation rows. -/
structure ReserveLaw (s : Store) (orderId : Int) (items : List Item) (r : Bool × Store) : Prop where
  verdict : r.1 = true ↔ ∀ p ∈ items.map Item.productId,
    ∃ product, s.products.get? p = some product ∧ demand items p ≤ product.quantityAvailable
  refused : r.1 = false → r.2 = s
  keys : r.2.products.keys = s.products.keys
  stock : r.1 = true → ∀ p, r.2.products.get? p =
    if p ∈ items.map Item.productId then
      (s.products.get? p).map fun product => product.add (-(demand items p))
    else s.products.get? p
  rows : r.1 = true → ∃ new, r.2.reservations.rows = s.reservations.rows ++ new ∧
    (∀ row ∈ new, row.2.orderId = orderId) ∧ RowsMatch new items
  permuted : ∀ items', items.Perm items' →
    (reserveForOrder s orderId items').1 = r.1 ∧
      (reserveForOrder s orderId items').2.SameUpToIds r.2
  itemwise : reserveItems s orderId items = r

theorem demand_snoc (items : List Item) (item : Item) (p : Int) :
    demand (items ++ [item]) p =
      demand items p + if item.productId = p then item.quantity else 0 := by
  rw [demand_append]
  by_cases hp : item.productId = p
  · simp [demand, hp]
  · simp [demand, hp]

/-- The stock covers one item more when it covers the others and what they leave is enough. -/
theorem covers_snoc {s : Store} {items : List Item} {item : Item} (hpos : 0 < item.quantity) :
    s.Covers (items ++ [item]) ↔ s.Covers items ∧
      ∃ product, s.products.get? item.productId = some product ∧
        demand items item.productId + item.quantity ≤ product.quantityAvailable := by
  constructor
  · intro h
    constructor
    · intro p hp
      obtain ⟨product, hget, hle⟩ := h p (by
        rw [List.map_append]
        exact List.mem_append_left _ hp)
      rw [demand_snoc] at hle
      refine ⟨product, hget, ?_⟩
      split_ifs at hle <;> omega
    · obtain ⟨product, hget, hle⟩ := h item.productId (by simp)
      rw [demand_snoc, if_pos rfl] at hle
      exact ⟨product, hget, hle⟩
  · rintro ⟨hall, product, hget, hle⟩ p hp
    by_cases heq : item.productId = p
    · subst heq
      exact ⟨product, hget, by rw [demand_snoc, if_pos rfl]; exact hle⟩
    · have hold : p ∈ items.map Item.productId := by
        rw [List.map_append] at hp
        refine (List.mem_append.mp hp).resolve_right fun hnew => heq ?_
        exact (List.mem_singleton.mp hnew).symm
      obtain ⟨q, hq, hqle⟩ := hall p hold
      exact ⟨q, hq, by rw [demand_snoc, if_neg heq]; omega⟩

theorem reservations_reserved (s : Store) (orderId : Int) (items : List Item) :
    (s.reserved orderId items).reservations =
      s.reservations.insertAll (reservationRows orderId (wantedOf items)) := rfl

/-- The order has a row for exactly the products that were wanted so far. -/
theorem any_rows_reserved {s : Store} {orderId : Int} (hnil : s.reservationsOf orderId = [])
    (items : List Item) (p : Int) :
    ((s.reserved orderId items).reservations.rows.any fun r =>
      r.2.orderId = orderId ∧ r.2.productId = p) = true ↔ p ∈ (wantedOf items).keys := by
  rw [List.any_eq_true]
  constructor
  · rintro ⟨r, hr, hmatch⟩
    obtain ⟨horder, hproduct⟩ := of_decide_eq_true hmatch
    rcases mem_rows_reserved hr with hmem | ⟨-, hp, -⟩
    · exact absurd (decide_eq_true horder) (List.filter_eq_nil_iff.mp hnil r hmem)
    · exact (mem_keys_wantedOf items p).mpr (hproduct ▸ hp)
  · intro hkey
    obtain ⟨w, hw, hwp⟩ := List.mem_map.mp hkey
    have hrow : (⟨w.1, orderId, w.2⟩ : InventoryReservation) ∈
        (s.reserved orderId items).reservations.rows.map Prod.snd := by
      rw [reservations_reserved, SerialTable.map_snd_rows_insertAll]
      exact List.mem_append_right _ (List.mem_map.mpr ⟨w, hw, rfl⟩)
    obtain ⟨r, hr, hrw⟩ := List.mem_map.mp hrow
    exact ⟨r, hr, by simp [hrw, hwp]⟩

/-- The row that a product already has grows in its place. -/
theorem reservationRows_grow {items : List Item} {item : Item} (orderId : Int)
    (hkey : item.productId ∈ (wantedOf items).keys) :
    (reservationRows orderId (wantedOf items)).map (fun r =>
        if r.orderId = orderId ∧ r.productId = item.productId then
          { r with quantity := r.quantity + item.quantity } else r) =
      reservationRows orderId (wantedOf (items ++ [item])) := by
  have hvalue : ∀ w ∈ (wantedOf items).entries, w.1 = item.productId →
      w.2 = (wantedOf items).getD item.productId 0 := by
    intro w hw hwp
    rw [Dict.getD_eq, ← hwp, ((wantedOf items).get?_eq_some_iff w.1 w.2).mpr hw, Option.getD_some]
  rw [wantedOf_snoc, reservationRows, reservationRows,
    (wantedOf items).entries_set_of_mem _ _ hkey, List.map_map, List.map_map]
  apply List.map_congr_left
  intro w hw
  by_cases hwp : w.1 = item.productId
  · simp [hwp, hvalue w hw hwp]
  · simp [hwp]

/-- The row of a product that was already wanted grows; a new product gets a row. -/
theorem addToRow_reserved {s : Store} {orderId : Int} (hnil : s.reservationsOf orderId = [])
    (items : List Item) (item : Item) :
    addToRow (s.reserved orderId items).reservations orderId item =
      (s.reserved orderId (items ++ [item])).reservations := by
  have hany := any_rows_reserved hnil items item.productId
  unfold addToRow
  by_cases hkey : item.productId ∈ (wantedOf items).keys
  · have hothers : ∀ r ∈ s.reservations.rows,
        (if r.2.orderId = orderId ∧ r.2.productId = item.productId then
          { r.2 with quantity := r.2.quantity + item.quantity } else r.2) = r.2 :=
      fun r hr => if_neg fun h => List.filter_eq_nil_iff.mp hnil r hr (decide_eq_true h.1)
    rw [if_pos (hany.mpr hkey), reservations_reserved, reservations_reserved,
      SerialTable.updateAll_insertAll, SerialTable.updateAll_eq_self hothers,
      reservationRows_grow orderId hkey]
  · have hzero : (wantedOf items).getD item.productId 0 = 0 := by
      rw [Dict.getD_eq, ((wantedOf items).get?_eq_none_iff _).mpr hkey, Option.getD_none]
    have hnew : reservationRows orderId (wantedOf (items ++ [item])) =
        reservationRows orderId (wantedOf items) ++ [⟨item.productId, orderId, item.quantity⟩] := by
      simp [wantedOf_snoc, reservationRows, (wantedOf items).entries_set_of_notMem _ _ hkey, hzero]
    rw [if_neg (fun h => hkey (hany.mp h)), reservations_reserved, reservations_reserved, hnew,
      SerialTable.insertAll_snoc]

/-- One item more, taken from the store in which the others are reserved. -/
theorem reserveItem_reserved {s : Store} {orderId : Int} (hnil : s.reservationsOf orderId = [])
    (items : List Item) (item : Item) :
    reserveItem orderId (s.reserved orderId items) item =
      if (∃ product, s.products.get? item.productId = some product ∧
          demand items item.productId + item.quantity ≤ product.quantityAvailable) then
        some (s.reserved orderId (items ++ [item]))
      else none := by
  have hstore : (⟨(s.reserved orderId items).products.modify item.productId
      fun p => p.add (-item.quantity),
      addToRow (s.reserved orderId items).reservations orderId item⟩ : Store) =
        s.reserved orderId (items ++ [item]) := by
    apply Store.ext
    · apply Dict.ext_get?
      · rw [Dict.keys_modify, keys_reserved, keys_reserved]
      · intro k
        rw [Dict.get?_modify, get?_reserved, get?_reserved, demand_snoc]
        by_cases hk : k = item.productId
        · subst hk
          cases s.products.get? item.productId with
          | none => simp
          | some p => simp [Int.add_comm]
        · simp [hk, Ne.symm hk]
    · exact addToRow_reserved hnil items item
  unfold reserveItem
  rw [get?_reserved]
  cases hget : s.products.get? item.productId with
  | none => simp
  | some product =>
    simp only [Option.map_some, Product.quantityAvailable_add, Option.some.injEq, exists_eq_left',
      hstore]
    by_cases hle : demand items item.productId + item.quantity ≤ product.quantityAvailable
    · rw [if_neg (by omega), if_pos hle]
    · rw [if_pos (by omega), if_neg hle]

/-- Reserving item by item comes to the same as reserving the sums. -/
theorem foldlM_reserveItem {s : Store} {orderId : Int} (hnil : s.reservationsOf orderId = [])
    {items : List Item} (hpos : ∀ i ∈ items, 0 < i.quantity) :
    items.foldlM (reserveItem orderId) s =
      if s.Covers items then some (s.reserved orderId items) else none := by
  induction items using List.reverseRecOn with
  | nil =>
    have hcovers : s.Covers [] := fun p hp => by cases hp
    rw [if_pos hcovers, reserved_nil]
    rfl
  | append_singleton items item ih =>
    have hitem : 0 < item.quantity := hpos item (by simp)
    have hrest := ih fun i hi => hpos i (List.mem_append_left _ hi)
    rw [List.foldlM_append, hrest]
    by_cases hcovers : s.Covers items
    · rw [if_pos hcovers]
      simp only [List.foldlM_cons, List.foldlM_nil, bind_pure, Option.bind_eq_bind,
        Option.bind_some, reserveItem_reserved hnil, covers_snoc hitem, hcovers, true_and]
    · have hnot : ¬ s.Covers (items ++ [item]) := fun h => hcovers ((covers_snoc hitem).mp h).1
      rw [if_neg hcovers, if_neg hnot]
      rfl

theorem reserveItems_eq {s : Store} {orderId : Int} (hnil : s.reservationsOf orderId = [])
    {items : List Item} (hpos : ∀ i ∈ items, 0 < i.quantity) :
    reserveItems s orderId items = reserveForOrder s orderId items := by
  unfold reserveItems
  rw [foldlM_reserveItem hnil hpos, reserveForOrder_eq, if_pos hnil]
  by_cases hcovers : s.Covers items
  · rw [if_pos hcovers, if_pos hcovers]
  · rw [if_neg hcovers, if_neg hcovers]

theorem demand_perm {items items' : List Item} (h : items.Perm items') (p : Int) :
    demand items p = demand items' p :=
  ((h.filter _).map _).sum_eq

theorem covers_perm {s : Store} {items items' : List Item} (h : items.Perm items') :
    s.Covers items ↔ s.Covers items' := by
  unfold Store.Covers
  simp only [demand_perm h, (h.map Item.productId).mem_iff]

theorem get?_wantedOf_perm {items items' : List Item} (h : items.Perm items') (p : Int) :
    (wantedOf items).get? p = (wantedOf items').get? p := by
  rw [get?_wantedOf, get?_wantedOf, demand_perm h]
  simp only [(h.map Item.productId).mem_iff]

theorem reserved_perm (s : Store) (orderId : Int) {items items' : List Item}
    (h : items.Perm items') :
    (s.reserved orderId items').SameUpToIds (s.reserved orderId items) where
  products := by
    apply Dict.ext_get?
    · rw [keys_reserved, keys_reserved]
    · intro k
      rw [get?_reserved, get?_reserved, demand_perm h]
  reservations := by
    rw [reservations_reserved, reservations_reserved, SerialTable.map_snd_rows_insertAll,
      SerialTable.map_snd_rows_insertAll]
    have hentries := Dict.entries_perm fun p => (get?_wantedOf_perm h p).symm
    exact (hentries.map _).append_left _

theorem reserveForOrder_perm {s : Store} {orderId : Int} (hnil : s.reservationsOf orderId = [])
    {items items' : List Item} (h : items.Perm items') :
    (reserveForOrder s orderId items').1 = (reserveForOrder s orderId items).1 ∧
      (reserveForOrder s orderId items').2.SameUpToIds (reserveForOrder s orderId items).2 := by
  rw [reserveForOrder_eq, reserveForOrder_eq, if_pos hnil, if_pos hnil]
  by_cases hcovers : s.Covers items
  · rw [if_pos hcovers, if_pos ((covers_perm h).mp hcovers)]
    exact ⟨rfl, reserved_perm s orderId h⟩
  · rw [if_neg hcovers, if_neg fun h' => hcovers ((covers_perm h).mpr h')]
    exact ⟨rfl, rfl, .refl _⟩

/-- Every row that reserving adds is the order's, one for each product. -/
theorem rows_reserved_match (s : Store) (orderId : Int) (items : List Item) :
    ∃ new, (s.reserved orderId items).reservations.rows = s.reservations.rows ++ new ∧
      (∀ row ∈ new, row.2.orderId = orderId) ∧ RowsMatch new items := by
  refine ⟨_, rows_reserved s orderId items, fun row hrow => ?_, ?_⟩
  · obtain ⟨i, hi, rfl⟩ := List.mem_mapIdx.mp hrow
    obtain ⟨w, -, heq⟩ := List.mem_map.mp (List.getElem_mem hi)
    simp [← heq]
  · have hall := SerialTable.map_snd_rows_insertAll s.reservations
      (reservationRows orderId (wantedOf items))
    rw [SerialTable.rows_insertAll, List.map_append] at hall
    exact rowsMatch_reservationRows (List.append_cancel_left hall)

/-- For an order without rows, `reserve_for_order` takes the sum of every product from
the stock when the stock covers all of them, and otherwise nothing. -/
theorem reserve_all_or_nothing (s : Store) (orderId : Int) (items : List Item)
    (hnil : s.reservationsOf orderId = []) (hpos : ∀ i ∈ items, 0 < i.quantity) :
    ReserveLaw s orderId items (reserveForOrder s orderId items) where
  verdict := by
    rw [reserveForOrder_eq, if_pos hnil]
    by_cases hcovers : s.Covers items
    · rw [if_pos hcovers]
      exact iff_of_true rfl hcovers
    · rw [if_neg hcovers]
      exact iff_of_false Bool.false_ne_true hcovers
  refused := by
    rw [reserveForOrder_eq, if_pos hnil]
    split_ifs
    · exact fun h => by cases h
    · exact fun _ => rfl
  keys := by
    rw [reserveForOrder_eq, if_pos hnil]
    split_ifs
    · exact keys_reserved s orderId items
    · rfl
  stock := by
    rw [reserveForOrder_eq, if_pos hnil]
    split_ifs
    · intro _ p
      rw [get?_reserved]
      split_ifs with hp
      · rfl
      · rw [demand_eq_zero hp]
        cases s.products.get? p <;> simp
    · exact fun h => by cases h
  rows := by
    rw [reserveForOrder_eq, if_pos hnil]
    split_ifs
    · exact fun _ => rows_reserved_match s orderId items
    · exact fun h => by cases h
  permuted _ h := reserveForOrder_perm hnil h
  itemwise := reserveItems_eq hnil hpos

/-- Each of the two lines of product 1 fits, their sum does not. -/
theorem reserve_all_or_nothing_split_lines :
    ReserveLaw (runCalls .empty [.createProduct 1 widget]) 5 [⟨1, 6⟩, ⟨1, 6⟩]
        (reserveForOrder (runCalls .empty [.createProduct 1 widget]) 5 [⟨1, 6⟩, ⟨1, 6⟩]) ∧
      (reserveForOrder (runCalls .empty [.createProduct 1 widget]) 5 [⟨1, 6⟩, ⟨1, 6⟩]).1 = false :=
  ⟨reserve_all_or_nothing _ _ _ rfl (by simp), rfl⟩

end OrderMesh.Inventory
