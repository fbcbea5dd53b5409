import Mathlib.Algebra.Order.BigOperators.Group.List
import Mathlib.Algebra.Order.Ring.Int
import OrderMesh.Inventory.Effects

namespace OrderMesh.Inventory

inductive Call
  | createProduct (id : Int) (payload : ProductCreate)
  | reserveForOrder (orderId : Int) (items : List Item)
  | releaseForOrder (orderId : Int)

inductive Ret
  | created (id : Int) (product : Product)
  | reserved (ok : Bool)
  | released (productIds : List Int)
  deriving DecidableEq

/-- A call run alone; `none` when the database refuses the insert. -/
def Call.apply : Call → Store → Option (Ret × Store)
  | .createProduct id payload, s =>
      (Inventory.createProduct s id payload).map fun r => (.created id r.1, r.2)
  | .reserveForOrder orderId items, s =>
      let r := Inventory.reserveForOrder s orderId items
      some (.reserved r.1, r.2)
  | .releaseForOrder orderId, s =>
      let r := Inventory.releaseForOrder s orderId
      some (.released r.1, r.2)

/-- The store after a call; a refused insert changes nothing. -/
def Call.run (c : Call) (s : Store) : Store := ((c.apply s).map Prod.snd).getD s

def runCalls (s : Store) (calls : List Call) : Store := calls.foldl (fun s c => c.run s) s

theorem runCalls_append (s : Store) (cs ds : List Call) :
    runCalls s (cs ++ ds) = runCalls (runCalls s cs) ds := List.foldl_append

theorem runCalls_snoc (s : Store) (cs : List Call) (c : Call) :
    runCalls s (cs ++ [c]) = c.run (runCalls s cs) := runCalls_append s cs [c]

def widget : ProductCreate where
  sku := "SKU1"
  name := "Widget"
  quantityAvailable := 10
  sku_length := by decide
  name_length := by decide
  quantityAvailable_nonneg := by decide

theorem createProduct_eq_some {s t : Store} {id : Int} {payload : ProductCreate} {p : Product}
    (h : createProduct s id payload = some (p, t)) :
    id ∉ s.products.keys ∧ s.skuTaken payload.sku = false ∧
      p = ⟨payload.sku, payload.name, payload.quantityAvailable⟩ ∧
      t = { s with products := s.products.set id p } := by
  unfold createProduct at h
  split_ifs at h with hc
  have hc' := not_or.mp hc
  cases Option.some.inj h
  exact ⟨hc'.1, Bool.not_eq_true _ ▸ hc'.2, rfl, rfl⟩

/-- What a call can do to the store: nothing, insert a product under a new id,
reserve for an order without rows, or release an order with rows. -/
theorem Call.run_cases (c : Call) (s : Store) :
    c.run s = s ∨
    (∃ id payload, c = .createProduct id payload ∧ id ∉ s.products.keys ∧
      (Inventory.createProduct s id payload).isSome ∧
      c.run s = { s with products := (s.products.set id
        ⟨payload.sku, payload.name, payload.quantityAvailable⟩) }) ∨
    (∃ orderId items, c = .reserveForOrder orderId items ∧ s.reservationsOf orderId = [] ∧
      s.Covers items ∧ c.run s = s.reserved orderId items) ∨
    (∃ orderId, c = .releaseForOrder orderId ∧ s.reservationsOf orderId ≠ [] ∧
      c.run s = s.released orderId) := by
  cases c with
  | createProduct id payload =>
    cases h : Inventory.createProduct s id payload with
    | none => exact .inl (by simp [Call.run, Call.apply, h])
    | some r =>
      obtain ⟨hid, -, hp, ht⟩ := createProduct_eq_some h
      refine .inr (.inl ⟨id, payload, rfl, hid, by rw [h]; rfl, ?_⟩)
      simp only [Call.run, Call.apply, h, Option.map_some, Option.getD_some]
      rw [ht, hp]
  | reserveForOrder orderId items =>
    have hrun : (Call.reserveForOrder orderId items).run s =
        (Inventory.reserveForOrder s orderId items).2 := rfl
    rw [hrun, reserveForOrder_eq]
    by_cases hrows : s.reservationsOf orderId = []
    · by_cases hc : s.Covers items
      · refine .inr (.inr (.inl ⟨orderId, items, rfl, hrows, hc, ?_⟩))
        rw [if_pos hrows, if_pos hc]
      · left; rw [if_pos hrows, if_neg hc]
    · left; rw [if_neg hrows]
  | releaseForOrder orderId =>
    have hrun : (Call.releaseForOrder orderId).run s =
        (Inventory.releaseForOrder s orderId).2 := rfl
    rw [hrun, releaseForOrder_eq]
    by_cases hrows : s.reservationsOf orderId = []
    · left; rw [if_pos hrows]
    · refine .inr (.inr (.inr ⟨orderId, rfl, hrows, ?_⟩))
      rw [if_neg hrows]

/-- Only a release of the order changes rows it has. -/
theorem Call.run_reservationsOf (c : Call) {s : Store} {orderId : Int}
    (hrows : s.reservationsOf orderId ≠ []) (hc : c ≠ .releaseForOrder orderId) :
    (c.run s).reservationsOf orderId = s.reservationsOf orderId := by
  rcases c.run_cases s with h | ⟨id, payload, -, -, -, h⟩ | ⟨o, items, -, hnil, -, h⟩ |
    ⟨o, heq, -, h⟩
  all_goals rw [h]
  · rfl
  · exact reservationsOf_reserved_other s items fun heq => hrows (heq ▸ hnil)
  · exact reservationsOf_released_other s fun ho => hc (ho ▸ heq)

theorem held_append (rs qs : List (Int × InventoryReservation)) (k : Int) :
    held (rs ++ qs) k = held rs k + held qs k := by
  simp [held, List.filter_append]

theorem held_map_snd (rs : List (Int × InventoryReservation)) (k : Int) :
    held rs k = (((rs.map Prod.snd).filter fun r => r.productId = k).map
      InventoryReservation.quantity).sum := by
  rw [held, List.filter_map, List.map_map]
  rfl

theorem held_eq_zero {rs : List (Int × InventoryReservation)} {k : Int}
    (h : ∀ r ∈ rs, r.2.productId ≠ k) : held rs k = 0 := by
  have hnil : rs.filter (fun r => r.2.productId = k) = [] :=
    List.filter_eq_nil_iff.mpr fun r hr heq => h r hr (of_decide_eq_true heq)
  simp [held, hnil]

theorem held_nonneg {rs : List (Int × InventoryReservation)} (k : Int)
    (h : ∀ r ∈ rs, 0 < r.2.quantity) : 0 ≤ held rs k := by
  apply List.sum_nonneg
  intro q hq
  obtain ⟨r, hr, rfl⟩ := List.mem_map.mp hq
  exact (h r (List.mem_filter.mp hr).1).le

theorem rows_reserved (s : Store) (orderId : Int) (items : List Item) :
    (s.reserved orderId items).reservations.rows = s.reservations.rows ++
      (reservationRows orderId (wantedOf items)).mapIdx fun i r => (s.reservations.next + i, r) :=
  SerialTable.rows_insertAll _ _

theorem held_rows_reserved (s : Store) (orderId : Int) (items : List Item) (k : Int) :
    held (s.reserved orderId items).reservations.rows k =
      held s.reservations.rows k + demand items k := by
  have hsnd : (s.reserved orderId items).reservations.rows.map Prod.snd =
      s.reservations.rows.map Prod.snd ++ reservationRows orderId (wantedOf items) :=
    SerialTable.map_snd_rows_insertAll _ _
  rw [held_map_snd, hsnd, List.filter_append, List.map_append, List.sum_append, ← held_map_snd]
  congr 1
  rw [← getD_wantedOf, ← sum_filter_entries, reservationRows, List.filter_map, List.map_map]
  rfl

/-- A release deletes the rows of its order and no others. -/
theorem rows_released (s : Store) (orderId : Int) :
    (s.released orderId).reservations.rows =
      s.reservations.rows.filter fun r => ¬ r.2.orderId = orderId := by
  apply List.filter_congr
  intro r hr
  have hiff : r.1 ∈ (s.reservationsOf orderId).map Prod.fst ↔ r.2.orderId = orderId := by
    constructor
    · intro hmem
      obtain ⟨x, hx, heq⟩ := List.mem_map.mp hmem
      obtain ⟨hxr, hxo⟩ := List.mem_filter.mp hx
      rw [← s.reservations.mem_rows_unique hxr hr heq]
      exact of_decide_eq_true hxo
    · intro ho
      exact List.mem_map_of_mem (List.mem_filter.mpr ⟨hr, decide_eq_true ho⟩)
  simp [hiff]

/-- The rows of the order and the rows left after its release make up the table. -/
theorem held_rows_released (s : Store) (orderId k : Int) :
    held (s.released orderId).reservations.rows k + held (s.reservationsOf orderId) k =
      held s.reservations.rows k := by
  have hself : s.reservationsOf orderId =
      s.reservations.rows.filter fun r => r.2.orderId = orderId := rfl
  rw [rows_released, hself]
  induction s.reservations.rows with
  | nil => rfl
  | cons r rs ih =>
    have hr : held (r :: rs) k = held [r] k + held rs k := held_append [r] rs k
    by_cases ho : r.2.orderId = orderId
    · simp only [List.filter_cons, ho, not_true_eq_false, decide_false, decide_true, if_true,
        Bool.false_eq_true, if_false]
      have hin := held_append [r] (rs.filter fun r => r.2.orderId = orderId) k
      simp only [List.singleton_append] at hin
      omega
    · simp only [List.filter_cons, ho, not_false_eq_true, decide_false, decide_true, if_true,
        Bool.false_eq_true, if_false]
      have hout := held_append [r] (rs.filter fun r => ¬ r.2.orderId = orderId) k
      simp only [List.singleton_append] at hout
      omega

theorem mem_rows_reserved {s : Store} {orderId : Int} {items : List Item}
    {r : Int × InventoryReservation} (h : r ∈ (s.reserved orderId items).reservations.rows) :
    r ∈ s.reservations.rows ∨
      (r.2.orderId = orderId ∧ r.2.productId ∈ items.map Item.productId ∧
        r.2.quantity = demand items r.2.productId) := by
  rw [rows_reserved] at h
  rcases List.mem_append.mp h with hold | hnew
  · exact .inl hold
  · obtain ⟨i, hi, rfl⟩ := List.mem_mapIdx.mp hnew
    have hmem := List.getElem_mem hi
    obtain ⟨w, hw, heq⟩ := List.mem_map.mp hmem
    have hget := ((wantedOf items).get?_eq_some_iff w.1 w.2).mpr hw
    rw [get?_wantedOf] at hget
    split_ifs at hget with hp
    refine .inr ?_
    simp only [← heq]
    exact ⟨trivial, hp, (Option.some.inj hget).symm⟩

theorem mem_rows_released {s : Store} {orderId : Int} {r : Int × InventoryReservation}
    (h : r ∈ (s.released orderId).reservations.rows) : r ∈ s.reservations.rows :=
  (List.mem_filter.mp h).1

/-- What every store reached by calls with positive quantities satisfies. -/
structure Store.Valid (s : Store) : Prop where
  known : ∀ r ∈ s.reservations.rows, r.2.productId ∈ s.products.keys
  positive : ∀ r ∈ s.reservations.rows, 0 < r.2.quantity
  inStock : ∀ k p, s.products.get? k = some p → 0 ≤ p.quantityAvailable

def Call.Positive : Call → Prop
  | .reserveForOrder _ items => ∀ i ∈ items, 0 < i.quantity
  | _ => True

theorem demand_pos {items : List Item} (h : ∀ i ∈ items, 0 < i.quantity) {p : Int}
    (hp : p ∈ items.map Item.productId) : 0 < demand items p := by
  obtain ⟨i, hi, rfl⟩ := List.mem_map.mp hp
  apply List.sum_pos
  · intro q hq
    obtain ⟨j, hj, rfl⟩ := List.mem_map.mp hq
    exact h j (List.mem_filter.mp hj).1
  · intro hnil
    have hmem : i ∈ items.filter (fun j => j.productId = i.productId) :=
      List.mem_filter.mpr ⟨hi, decide_eq_true rfl⟩
    rw [List.map_eq_nil_iff.mp hnil] at hmem
    cases hmem

theorem demand_eq_zero {items : List Item} {p : Int} (hp : p ∉ items.map Item.productId) :
    demand items p = 0 := by
  rw [← getD_wantedOf, Dict.getD_eq, get?_wantedOf, if_neg hp]
  rfl

theorem Store.valid_empty : Store.empty.Valid :=
  ⟨by simp [Store.empty], by simp [Store.empty], by simp [Store.empty]⟩

theorem Call.run_known (c : Call) {s : Store}
    (hs : ∀ r ∈ s.reservations.rows, r.2.productId ∈ s.products.keys) :
    ∀ r ∈ (c.run s).reservations.rows, r.2.productId ∈ (c.run s).products.keys := by
  intro r hr
  rcases c.run_cases s with h | ⟨id, payload, -, hid, -, h⟩ |
    ⟨o, items, -, -, hc, h⟩ | ⟨o, -, -, h⟩
  all_goals rw [h] at hr ⊢
  · exact hs r hr
  · rw [Dict.keys_set, if_neg hid]
    exact List.mem_append_left _ (hs r hr)
  · rw [keys_reserved]
    rcases mem_rows_reserved hr with hold | ⟨-, hp, -⟩
    · exact hs r hold
    · obtain ⟨product, hget, -⟩ := hc _ hp
      rw [Dict.mem_keys_iff, hget]
      rfl
  · rw [keys_released]
    exact hs r (mem_rows_released hr)

theorem runCalls_known (calls : List Call) :
    ∀ r ∈ (runCalls .empty calls).reservations.rows,
      r.2.productId ∈ (runCalls .empty calls).products.keys := by
  induction calls using List.reverseRecOn with
  | nil => simp [runCalls, Store.empty]
  | append_singleton cs c ih =>
    rw [runCalls_snoc]
    exact c.run_known ih

theorem Call.run_valid (c : Call) {s : Store} (hc : c.Positive) (hs : s.Valid) :
    (c.run s).Valid := by
  have hknown := c.run_known hs.known
  rcases c.run_cases s with h | ⟨id, payload, rfl, hid, -, h⟩ |
    ⟨o, items, rfl, -, hcov, h⟩ | ⟨o, rfl, -, h⟩
  all_goals rw [h] at hknown ⊢
  · exact hs
  · refine ⟨hknown, hs.positive, fun k p hk => ?_⟩
    rw [Dict.get?_set] at hk
    split_ifs at hk with heq
    · cases Option.some.inj hk
      exact payload.quantityAvailable_nonneg
    · exact hs.inStock k p hk
  · refine ⟨hknown, fun r hr => ?_, fun k p hk => ?_⟩
    · rcases mem_rows_reserved hr with hold | ⟨-, hp, hq⟩
      · exact hs.positive r hold
      · exact hq ▸ demand_pos hc hp
    · rw [get?_reserved] at hk
      obtain ⟨q, hq, rfl⟩ := Option.map_eq_some_iff.mp hk
      have hnonneg := hs.inStock k q hq
      by_cases hp : k ∈ items.map Item.productId
      · obtain ⟨product, hget, hle⟩ := hcov k hp
        cases Option.some.inj (hq.symm.trans hget)
        simp only [Product.quantityAvailable_add]
        omega
      · simp only [Product.quantityAvailable_add, demand_eq_zero hp]
        omega
  · refine ⟨hknown, fun r hr => hs.positive r (mem_rows_released hr), fun k p hk => ?_⟩
    rw [get?_released] at hk
    obtain ⟨q, hq, rfl⟩ := Option.map_eq_some_iff.mp hk
    have hnonneg := hs.inStock k q hq
    have hheld : 0 ≤ held (s.reservationsOf o) k :=
      held_nonneg k fun r hr => hs.positive r (List.mem_filter.mp hr).1
    simp only [Product.quantityAvailable_add]
    omega

theorem runCalls_valid {s : Store} (hs : s.Valid) {calls : List Call}
    (hc : ∀ c ∈ calls, c.Positive) : (runCalls s calls).Valid := by
  induction calls using List.reverseRecOn with
  | nil => exact hs
  | append_singleton cs c ih =>
    rw [runCalls_snoc]
    exact c.run_valid (hc c (by simp)) (ih fun d hd => hc d (List.mem_append_left _ hd))

end OrderMesh.Inventory
