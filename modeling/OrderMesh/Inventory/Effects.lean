import OrderMesh.Inventory.Service

namespace OrderMesh.Inventory

/-- The sum of the quantities of a product over the items. -/
def demand (items : List Item) (productId : Int) : Int :=
  ((items.filter fun i => i.productId = productId).map Item.quantity).sum

/-- The sum of the quantities of a product over reservation rows. -/
def held (rows : List (Int × InventoryReservation)) (productId : Int) : Int :=
  ((rows.filter fun r => r.2.productId = productId).map fun r => r.2.quantity).sum

theorem demand_append (is js : List Item) (p : Int) :
    demand (is ++ js) p = demand is p + demand js p := by
  simp [demand, List.filter_append]

theorem wantedOf_snoc (items : List Item) (item : Item) :
    wantedOf (items ++ [item]) = (wantedOf items).set item.productId
      ((wantedOf items).getD item.productId 0 + item.quantity) := by
  simp [wantedOf, List.foldl_append]

/-- The aggregation maps exactly the named products to the sums of their quantities. -/
theorem get?_wantedOf (items : List Item) (p : Int) :
    (wantedOf items).get? p =
      if p ∈ items.map Item.productId then some (demand items p) else none := by
  induction items using List.reverseRecOn with
  | nil => rfl
  | append_singleton items item ih =>
    rw [wantedOf_snoc, Dict.get?_set, Dict.getD_eq]
    by_cases hp : p = item.productId
    · subst hp
      have hone : demand [item] item.productId = item.quantity := by simp [demand]
      have hnone : item.productId ∉ items.map Item.productId → demand items item.productId = 0 := by
        intro h
        have hnil : items.filter (fun i => i.productId = item.productId) = [] := by
          apply List.filter_eq_nil_iff.mpr
          intro i hi heq
          exact h (List.mem_map.mpr ⟨i, hi, of_decide_eq_true heq⟩)
        simp [demand, hnil]
      rw [ih, demand_append, hone]
      by_cases hm : item.productId ∈ items.map Item.productId
      · simp [hm]
      · simp [hm, hnone hm]
    · have hzero : demand [item] p = 0 := by simp [demand, Ne.symm hp]
      rw [if_neg hp, ih, demand_append, hzero, add_zero]
      simp [hp]

theorem getD_wantedOf (items : List Item) (p : Int) :
    (wantedOf items).getD p 0 = demand items p := by
  rw [Dict.getD_eq, get?_wantedOf]
  by_cases hm : p ∈ items.map Item.productId
  · rw [if_pos hm, Option.getD_some]
  · have hnil : items.filter (fun i => i.productId = p) = [] := by
      apply List.filter_eq_nil_iff.mpr
      intro i hi heq
      exact hm (List.mem_map.mpr ⟨i, hi, of_decide_eq_true heq⟩)
    simp [hm, demand, hnil]

theorem mem_keys_wantedOf (items : List Item) (p : Int) :
    p ∈ (wantedOf items).keys ↔ p ∈ items.map Item.productId := by
  rw [Dict.mem_keys_iff, get?_wantedOf]
  by_cases hm : p ∈ items.map Item.productId <;> simp [hm]

@[simp] theorem Product.add_zero (p : Product) : p.add 0 = p := by
  cases p; simp [Product.add]

@[simp] theorem Product.add_add (p : Product) (m n : Int) : (p.add m).add n = p.add (m + n) := by
  cases p; simp [Product.add, Int.add_assoc]

@[simp] theorem Product.quantityAvailable_add (p : Product) (n : Int) :
    (p.add n).quantityAvailable = p.quantityAvailable + n := rfl

theorem get?_adjust (products : Dict Int Product) (deltas : List (Int × Int)) (k : Int) :
    (adjust products deltas).get? k = (products.get? k).map fun p =>
      p.add ((deltas.filter fun d => d.1 = k).map Prod.snd).sum := by
  induction deltas generalizing products with
  | nil => simp [adjust]
  | cons d ds ih =>
    change (adjust (products.modify d.1 fun p => p.add d.2) ds).get? k = _
    rw [ih, Dict.get?_modify]
    by_cases hk : k = d.1
    · subst hk
      cases products.get? d.1 <;> simp
    · simp [hk, Ne.symm hk]

theorem keys_adjust (products : Dict Int Product) (deltas : List (Int × Int)) :
    (adjust products deltas).keys = products.keys := by
  induction deltas generalizing products with
  | nil => rfl
  | cons d ds ih =>
    change (adjust (products.modify d.1 fun p => p.add d.2) ds).keys = _
    rw [ih, Dict.keys_modify]

theorem sum_filter_entries (w : Dict Int Int) (k : Int) :
    ((w.entries.filter fun e => e.1 = k).map Prod.snd).sum = w.getD k 0 := by
  obtain ⟨es, hes⟩ := w
  change _ = (es.lookup k).getD 0
  induction es with
  | nil => rfl
  | cons e es ih =>
    obtain ⟨a, b⟩ := e
    simp only [List.map_cons, List.nodup_cons] at hes
    by_cases ha : a = k
    · subst ha
      have hnil : es.filter (fun e => e.1 = a) = [] := by
        apply List.filter_eq_nil_iff.mpr
        intro e he heq
        exact hes.1 (of_decide_eq_true heq ▸ List.mem_map_of_mem he)
      simp [hnil]
    · rw [Dict.lookup_cons_ite, if_neg (Ne.symm ha), ← ih hes.2]
      simp [ha]

theorem get?_takeStock (wanted : Dict Int Int) (products : Dict Int Product) (k : Int) :
    (takeStock wanted products).get? k =
      (products.get? k).map fun p => p.add (-(wanted.getD k 0)) := by
  rw [takeStock, get?_adjust, ← sum_filter_entries, List.filter_map, List.map_map]
  have hneg : ∀ es : List (Int × Int), (es.map fun e => -e.2).sum = -(es.map Prod.snd).sum := by
    intro es
    induction es with
    | nil => rfl
    | cons e es ih => simp only [List.map_cons, List.sum_cons, ih]; omega
  rw [← hneg]
  rfl

theorem get?_returnStock (rows : List (Int × InventoryReservation)) (products : Dict Int Product)
    (k : Int) :
    (returnStock rows products).get? k = (products.get? k).map fun p => p.add (held rows k) := by
  rw [returnStock, get?_adjust, List.filter_map, List.map_map]
  rfl

theorem keys_takeStock (wanted : Dict Int Int) (products : Dict Int Product) :
    (takeStock wanted products).keys = products.keys := keys_adjust _ _

theorem keys_returnStock (rows : List (Int × InventoryReservation))
    (products : Dict Int Product) : (returnStock rows products).keys = products.keys :=
  keys_adjust _ _

/-- The loaded products are the committed rows of the given ids, in any order. -/
def Store.Loaded (s : Store) (ids : List Int) (products : Dict Int Product) : Prop :=
  ∀ k, products.get? k = if k ∈ ids then s.products.get? k else none

theorem Store.loaded_selectForUpdate (s : Store) (ids : List Int) :
    s.Loaded ids (s.selectForUpdate ids) := by
  intro k
  rw [Store.selectForUpdate, Dict.get?_filterKeys]
  simp

theorem Store.Loaded.subset_keys {s : Store} {ids : List Int} {products : Dict Int Product}
    (h : s.Loaded ids products) : ∀ k ∈ products.keys, k ∈ s.products.keys := by
  intro k hk
  rw [Dict.mem_keys_iff, h k] at hk
  rw [Dict.mem_keys_iff]
  split_ifs at hk with hin
  · exact hk
  · cases hk

/-- Every product the items name exists and has their whole quantity in stock. -/
def Store.Covers (s : Store) (items : List Item) : Prop :=
  ∀ p ∈ items.map Item.productId,
    ∃ product, s.products.get? p = some product ∧ demand items p ≤ product.quantityAvailable

/-- The check of the code decides `Covers`. -/
theorem covers_iff {s : Store} {items : List Item} {products : Dict Int Product}
    (h : s.Loaded (wantedOf items).keys products) :
    covers (wantedOf items) products = true ↔ s.Covers items := by
  unfold covers Store.Covers
  rw [List.all_eq_true]
  constructor
  · intro hall p hp
    have hget : (wantedOf items).get? p = some (demand items p) := by
      rw [get?_wantedOf, if_pos hp]
    have hc := hall _ (((wantedOf items).get?_eq_some_iff p (demand items p)).mp hget)
    have hl := h p
    rw [if_pos ((mem_keys_wantedOf items p).mpr hp)] at hl
    simp only [hl] at hc
    cases hs : s.products.get? p with
    | none => simp [hs] at hc
    | some product => exact ⟨product, rfl, by simpa [hs] using hc⟩
  · intro hall w hw
    have hget := ((wantedOf items).get?_eq_some_iff w.1 w.2).mpr hw
    rw [get?_wantedOf] at hget
    split_ifs at hget with hp
    obtain ⟨product, hs, hle⟩ := hall w.1 hp
    have hd : demand items w.1 = w.2 := Option.some.inj hget
    have hl := h w.1
    rw [if_pos ((mem_keys_wantedOf items w.1).mpr hp), hs] at hl
    simp only [hl]
    simpa [hd] using hle

instance (s : Store) (items : List Item) : Decidable (s.Covers items) :=
  decidable_of_iff _ (covers_iff (s.loaded_selectForUpdate (wantedOf items).keys))

/-- The store after the items are reserved for the order. -/
def Store.reserved (s : Store) (orderId : Int) (items : List Item) : Store :=
  s.commitReservation orderId (wantedOf items) (s.selectForUpdate (wantedOf items).keys)

/-- The store after the rows of the order are released. -/
def Store.released (s : Store) (orderId : Int) : Store :=
  s.commitRelease (s.reservationsOf orderId)
    (s.selectForUpdate (productIds (s.reservationsOf orderId)))

theorem update_congr {d e f : Dict Int Product} (he : ∀ k ∈ e.keys, k ∈ d.keys)
    (hef : ∀ k, e.get? k = f.get? k) : d.update e.entries = d.update f.entries := by
  have hf : ∀ k ∈ f.keys, k ∈ d.keys := fun k hk =>
    he k ((e.mem_keys_iff k).mpr (hef k ▸ (f.mem_keys_iff k).mp hk))
  apply Dict.ext_get?
  · rw [Dict.keys_update_of_subset d e.entries he, Dict.keys_update_of_subset d f.entries hf]
  · intro k
    rw [Dict.get?_update, Dict.get?_update, hef]

/-- The commit depends only on what was loaded, not on the order of loading. -/
theorem commitReservation_eq {s : Store} {orderId : Int} {items : List Item}
    {products : Dict Int Product} (h : s.Loaded (wantedOf items).keys products) :
    s.commitReservation orderId (wantedOf items) products = s.reserved orderId items := by
  have hl := s.loaded_selectForUpdate (wantedOf items).keys
  apply Store.ext
  · apply update_congr
    · rw [keys_takeStock]; exact h.subset_keys
    · intro k
      rw [get?_takeStock, get?_takeStock, h k, hl k]
  · rfl

theorem commitRelease_congr {s : Store} {rows : List (Int × InventoryReservation)}
    {products products' : Dict Int Product} (h : s.Loaded (productIds rows) products)
    (h' : s.Loaded (productIds rows) products') :
    s.commitRelease rows products = s.commitRelease rows products' := by
  apply Store.ext
  · apply update_congr
    · rw [keys_returnStock]; exact h.subset_keys
    · intro k
      rw [get?_returnStock, get?_returnStock, h k, h' k]
  · rfl

theorem commitRelease_eq {s : Store} {orderId : Int} {products : Dict Int Product}
    (h : s.Loaded (productIds (s.reservationsOf orderId)) products) :
    s.commitRelease (s.reservationsOf orderId) products = s.released orderId :=
  commitRelease_congr h (s.loaded_selectForUpdate _)

theorem reserveLocked_eq {s : Store} {orderId : Int} {items : List Item}
    {products : Dict Int Product} (h : s.Loaded (wantedOf items).keys products) :
    reserveLocked s orderId items products =
      if s.Covers items then (true, s.reserved orderId items) else (false, s) := by
  unfold reserveLocked
  rw [commitReservation_eq h]
  by_cases hc : s.Covers items
  · rw [if_pos ((covers_iff h).mpr hc), if_pos hc]
  · rw [if_neg (fun ht => hc ((covers_iff h).mp ht)), if_neg hc]

/-- Reserving does nothing for an order with rows, takes everything when the
stock covers it, and otherwise takes nothing. -/
theorem reserveForOrder_eq (s : Store) (orderId : Int) (items : List Item) :
    reserveForOrder s orderId items =
      if s.reservationsOf orderId = [] then
        if s.Covers items then (true, s.reserved orderId items) else (false, s)
      else (true, s) := by
  unfold reserveForOrder
  rw [reserveLocked_eq (s.loaded_selectForUpdate _)]
  simp only [List.isEmpty_iff]

theorem releaseForOrder_eq (s : Store) (orderId : Int) :
    releaseForOrder s orderId =
      if s.reservationsOf orderId = [] then ([], s)
      else (productIds (s.reservationsOf orderId), s.released orderId) := by
  simp only [releaseForOrder, Store.released, List.isEmpty_iff]

theorem keys_reserved (s : Store) (orderId : Int) (items : List Item) :
    (s.reserved orderId items).products.keys = s.products.keys := by
  apply Dict.keys_update_of_subset
  intro k hk
  exact (s.loaded_selectForUpdate (wantedOf items).keys).subset_keys k
    (keys_takeStock (wantedOf items) _ ▸ hk)

theorem keys_commitRelease {s : Store} {rows : List (Int × InventoryReservation)}
    {products : Dict Int Product} (h : s.Loaded (productIds rows) products) :
    (s.commitRelease rows products).products.keys = s.products.keys := by
  apply Dict.keys_update_of_subset
  intro k hk
  exact h.subset_keys k (keys_returnStock rows products ▸ hk)

theorem keys_released (s : Store) (orderId : Int) :
    (s.released orderId).products.keys = s.products.keys :=
  keys_commitRelease (s.loaded_selectForUpdate _)

/-- Reserving lowers the stock of every product by its demand. -/
theorem get?_reserved (s : Store) (orderId : Int) (items : List Item) (k : Int) :
    (s.reserved orderId items).products.get? k =
      (s.products.get? k).map fun p => p.add (-(demand items k)) := by
  change (s.products.update (takeStock _ _).entries).get? k = _
  rw [Dict.get?_update, get?_takeStock, getD_wantedOf, s.loaded_selectForUpdate _ k]
  split_ifs with hk
  · cases s.products.get? k <;> rfl
  · have hzero : demand items k = 0 := by
      rw [← getD_wantedOf, Dict.getD_eq, ((wantedOf items).get?_eq_none_iff k).mpr hk]
      rfl
    cases s.products.get? k <;> simp [hzero]

theorem reserved_nil (s : Store) (orderId : Int) : s.reserved orderId [] = s := by
  apply Store.ext
  · apply Dict.ext_get? (keys_reserved s orderId [])
    intro k
    rw [get?_reserved]
    have hzero : demand [] k = 0 := rfl
    cases s.products.get? k <;> simp [hzero]
  · rfl

/-- Releasing raises the stock of every product by what the rows hold of it. -/
theorem get?_commitRelease {s : Store} {rows : List (Int × InventoryReservation)}
    {products : Dict Int Product} (h : s.Loaded (productIds rows) products) (k : Int) :
    (s.commitRelease rows products).products.get? k =
      (s.products.get? k).map fun p => p.add (held rows k) := by
  change (s.products.update (returnStock _ _).entries).get? k = _
  rw [Dict.get?_update, get?_returnStock, h k]
  split_ifs with hk
  · cases s.products.get? k <;> rfl
  · have hnil : rows.filter (fun r => r.2.productId = k) = [] := by
      apply List.filter_eq_nil_iff.mpr
      intro r hr heq
      exact hk (List.mem_dedup.mpr (List.mem_map.mpr ⟨r, hr, of_decide_eq_true heq⟩))
    cases s.products.get? k <;> simp [held, hnil]

theorem get?_released (s : Store) (orderId : Int) (k : Int) :
    (s.released orderId).products.get? k =
      (s.products.get? k).map fun p => p.add (held (s.reservationsOf orderId) k) :=
  get?_commitRelease (s.loaded_selectForUpdate _) k

/-- The rows written for an order, without their ids. -/
theorem reservationsOf_commitReservation_self (s : Store) (orderId : Int) (wanted : Dict Int Int)
    (products : Dict Int Product) :
    ((s.commitReservation orderId wanted products).reservationsOf orderId).map Prod.snd =
      (s.reservationsOf orderId).map Prod.snd ++ reservationRows orderId wanted := by
  refine (SerialTable.select_insertAll s.reservations _ _).trans ?_
  congr 1
  apply List.filter_eq_self.mpr
  intro r hr
  obtain ⟨w, -, rfl⟩ := List.mem_map.mp hr
  simp

theorem reservationsOf_commitReservation_other (s : Store) {orderId other : Int}
    (wanted : Dict Int Int) (products : Dict Int Product) (h : other ≠ orderId) :
    (s.commitReservation orderId wanted products).reservationsOf other =
      s.reservationsOf other := by
  apply SerialTable.select_insertAll_of_none
  intro r hr
  obtain ⟨w, -, rfl⟩ := List.mem_map.mp hr
  simpa using Ne.symm h

theorem reservationsOf_reserved_self (s : Store) (orderId : Int) (items : List Item) :
    ((s.reserved orderId items).reservationsOf orderId).map Prod.snd =
      (s.reservationsOf orderId).map Prod.snd ++ reservationRows orderId (wantedOf items) :=
  reservationsOf_commitReservation_self s orderId _ _

theorem reservationRows_ne_nil (orderId : Int) {items : List Item} (h : items ≠ []) :
    reservationRows orderId (wantedOf items) ≠ [] := by
  obtain ⟨item, rest, rfl⟩ := List.exists_cons_of_ne_nil h
  have hmem : item.productId ∈ (wantedOf (item :: rest)).keys :=
    (mem_keys_wantedOf _ _).mpr (by simp)
  intro hnil
  rw [Dict.keys, List.map_eq_nil_iff.mp hnil] at hmem
  cases hmem

theorem reservationsOf_reserved_ne_nil (s : Store) (orderId : Int) {items : List Item}
    (h : items ≠ []) : (s.reserved orderId items).reservationsOf orderId ≠ [] := by
  intro hnil
  have hsnd := reservationsOf_reserved_self s orderId items
  rw [hnil] at hsnd
  exact reservationRows_ne_nil orderId h (List.append_eq_nil_iff.mp hsnd.symm).2

theorem reservationsOf_reserved_other (s : Store) {orderId other : Int} (items : List Item)
    (h : other ≠ orderId) :
    (s.reserved orderId items).reservationsOf other = s.reservationsOf other :=
  reservationsOf_commitReservation_other s _ _ h

theorem reservationsOf_released_self (s : Store) (orderId : Int) :
    (s.released orderId).reservationsOf orderId = [] :=
  SerialTable.select_deleteIds_self s.reservations _

theorem reservationsOf_released_other (s : Store) {orderId other : Int} (h : other ≠ orderId) :
    (s.released orderId).reservationsOf other = s.reservationsOf other := by
  apply SerialTable.select_deleteIds_of_disjoint
  intro r hr
  have ho : r.orderId = other := of_decide_eq_true hr
  simpa [ho] using h

end OrderMesh.Inventory
