import OrderMesh.Inventory.Calls

namespace OrderMesh.Inventory

/-- The insert of the run that created the product. -/
def CreatedBy (calls : List Call) (id : Int) (payload : ProductCreate) : Prop :=
  ∃ pre post, calls = pre ++ .createProduct id payload :: post ∧
    (createProduct (runCalls .empty pre) id payload).isSome

/-- The call of the run that reserved the rows the order still has. -/
def ReservedBy (calls : List Call) (orderId : Int) (items : List Item) : Prop :=
  ∃ pre post, calls = pre ++ .reserveForOrder orderId items :: post ∧
    (runCalls .empty pre).reservationsOf orderId = [] ∧
    (reserveForOrder (runCalls .empty pre) orderId items).1 = true ∧
    .releaseForOrder orderId ∉ post

/-- One row for each distinct product of the items, with the sum of its quantities. -/
structure RowsMatch (rows : List (Int × InventoryReservation)) (items : List Item) : Prop where
  distinct : (rows.map fun r => r.2.productId).Nodup
  products : ∀ p, p ∈ rows.map (fun r => r.2.productId) ↔ p ∈ items.map Item.productId
  quantity : ∀ r ∈ rows, r.2.quantity = demand items r.2.productId

structure StockLaw (calls : List Call) : Prop where
  balance : ∀ id p, (runCalls .empty calls).products.get? id = some p →
    ∃ payload, CreatedBy calls id payload ∧
      p.quantityAvailable + held (runCalls .empty calls).reservations.rows id =
        payload.quantityAvailable ∧
      0 ≤ p.quantityAvailable ∧ p.quantityAvailable ≤ payload.quantityAvailable
  rows : ∀ orderId, (runCalls .empty calls).reservationsOf orderId = [] ∨
    ∃ items, ReservedBy calls orderId items ∧
      RowsMatch ((runCalls .empty calls).reservationsOf orderId) items

/-- A call moves stock between a product and its rows, and creates none. -/
theorem Call.run_balance (c : Call) {s : Store} {k : Int} {p : Product}
    (hp : s.products.get? k = some p) :
    ∃ q, (c.run s).products.get? k = some q ∧
      q.quantityAvailable + held (c.run s).reservations.rows k =
        p.quantityAvailable + held s.reservations.rows k := by
  rcases c.run_cases s with h | ⟨id, payload, -, hid, -, h⟩ | ⟨o, items, -, -, -, h⟩ | ⟨o, -, -, h⟩
  all_goals rw [h]
  · exact ⟨p, hp, rfl⟩
  · have hne : k ≠ id := by
      intro heq
      have hmem := (s.products.mem_keys_iff k).mpr (hp ▸ rfl)
      exact hid (heq ▸ hmem)
    exact ⟨p, by rw [Dict.get?_set, if_neg hne, hp], rfl⟩
  · refine ⟨p.add (-(demand items k)), by rw [get?_reserved, hp]; rfl, ?_⟩
    rw [held_rows_reserved, Product.quantityAvailable_add]
    omega
  · refine ⟨p.add (held (s.reservationsOf o) k), by rw [get?_released, hp]; rfl, ?_⟩
    have hsplit := held_rows_released s o k
    rw [Product.quantityAvailable_add]
    omega

/-- A product that a call brings in is the one it creates, with no rows. -/
theorem Call.run_new (c : Call) {s : Store}
    (hknown : ∀ r ∈ s.reservations.rows, r.2.productId ∈ s.products.keys) {k : Int} {p : Product}
    (hn : s.products.get? k = none) (hp : (c.run s).products.get? k = some p) :
    ∃ payload, c = .createProduct k payload ∧ (Inventory.createProduct s k payload).isSome ∧
      p.quantityAvailable = payload.quantityAvailable ∧
      held (c.run s).reservations.rows k = 0 := by
  rcases c.run_cases s with h | ⟨id, payload, hc, -, hsome, h⟩ | ⟨o, items, -, -, -, h⟩ |
    ⟨o, -, -, h⟩
  all_goals rw [h] at hp
  · rw [hn] at hp; cases hp
  · rw [Dict.get?_set] at hp
    split_ifs at hp with heq
    · subst heq
      cases Option.some.inj hp
      have hno : ∀ r ∈ s.reservations.rows, r.2.productId ≠ k := by
        intro r hr hrk
        exact (s.products.get?_eq_none_iff k).mp hn (hrk ▸ hknown r hr)
      exact ⟨payload, hc, hsome, rfl, by rw [h]; exact held_eq_zero hno⟩
    · rw [hn] at hp; cases hp
  · rw [get?_reserved, hn] at hp; cases hp
  · rw [get?_released, hn] at hp; cases hp

theorem CreatedBy.snoc {calls : List Call} {id : Int} {payload : ProductCreate}
    (h : CreatedBy calls id payload) (c : Call) : CreatedBy (calls ++ [c]) id payload := by
  obtain ⟨pre, post, rfl, hsome⟩ := h
  exact ⟨pre, post ++ [c], by simp, hsome⟩

theorem runCalls_balance (calls : List Call) {k : Int} {p : Product}
    (hp : (runCalls .empty calls).products.get? k = some p) :
    ∃ payload, CreatedBy calls k payload ∧
      p.quantityAvailable + held (runCalls .empty calls).reservations.rows k =
        payload.quantityAvailable := by
  induction calls using List.reverseRecOn generalizing p with
  | nil => simp [runCalls, Store.empty] at hp
  | append_singleton cs c ih =>
    rw [runCalls_snoc] at hp ⊢
    cases hold : (runCalls .empty cs).products.get? k with
    | none =>
      obtain ⟨payload, hc, hsome, hq, hzero⟩ := c.run_new (runCalls_known cs) hold hp
      exact ⟨payload, ⟨cs, [], by rw [hc], hsome⟩, by rw [hq, hzero, add_zero]⟩
    | some q =>
      obtain ⟨payload, hby, hsum⟩ := ih hold
      obtain ⟨p', hp', hbal⟩ := c.run_balance hold
      cases Option.some.inj (hp.symm.trans hp')
      exact ⟨payload, hby.snoc c, hbal.trans hsum⟩

theorem rowsMatch_reservationRows {rows : List (Int × InventoryReservation)} {orderId : Int}
    {items : List Item} (h : rows.map Prod.snd = reservationRows orderId (wantedOf items)) :
    RowsMatch rows items := by
  have hproducts : rows.map (fun r => r.2.productId) = (wantedOf items).keys := by
    have hmap := congrArg (List.map InventoryReservation.productId) h
    simpa [reservationRows, Dict.keys, Function.comp_def] using hmap
  refine ⟨hproducts ▸ (wantedOf items).nodup, fun p => ?_, fun r hr => ?_⟩
  · rw [hproducts, mem_keys_wantedOf]
  · have hmem : r.2 ∈ reservationRows orderId (wantedOf items) := h ▸ List.mem_map_of_mem hr
    obtain ⟨w, hw, heq⟩ := List.mem_map.mp hmem
    have hget := ((wantedOf items).get?_eq_some_iff w.1 w.2).mpr hw
    rw [get?_wantedOf] at hget
    split_ifs at hget
    rw [← heq]
    exact (Option.some.inj hget).symm

/-- Rows appear for an order only when a call reserves it. -/
theorem Call.run_reserves (c : Call) {s : Store} {orderId : Int}
    (hnil : s.reservationsOf orderId = []) (hrows : (c.run s).reservationsOf orderId ≠ []) :
    ∃ items, c = .reserveForOrder orderId items ∧
      (Inventory.reserveForOrder s orderId items).1 = true ∧
      c.run s = s.reserved orderId items := by
  rcases c.run_cases s with h | ⟨id, payload, -, -, -, h⟩ | ⟨o, items, hc, ho, hcov, h⟩ |
    ⟨o, -, -, h⟩
  · exact absurd hnil (h ▸ hrows)
  · rw [h] at hrows
    exact absurd hnil hrows
  · by_cases heq : orderId = o
    · subst heq
      refine ⟨items, hc, ?_, h⟩
      rw [reserveForOrder_eq, if_pos ho, if_pos hcov]
    · rw [h, reservationsOf_reserved_other s items heq] at hrows
      exact absurd hnil hrows
  · by_cases heq : orderId = o
    · subst heq
      rw [h, reservationsOf_released_self] at hrows
      exact absurd rfl hrows
    · rw [h, reservationsOf_released_other s heq] at hrows
      exact absurd hnil hrows

theorem run_releaseForOrder_rows (s : Store) (orderId : Int) :
    ((Call.releaseForOrder orderId).run s).reservationsOf orderId = [] := by
  change (Inventory.releaseForOrder s orderId).2.reservationsOf orderId = []
  rw [releaseForOrder_eq]
  by_cases hrows : s.reservationsOf orderId = []
  · rw [if_pos hrows]; exact hrows
  · rw [if_neg hrows]; exact reservationsOf_released_self s orderId

theorem runCalls_rows (calls : List Call) (orderId : Int) :
    (runCalls .empty calls).reservationsOf orderId = [] ∨
      ∃ items, ReservedBy calls orderId items ∧
        RowsMatch ((runCalls .empty calls).reservationsOf orderId) items := by
  induction calls using List.reverseRecOn with
  | nil => exact .inl rfl
  | append_singleton cs c ih =>
    rw [runCalls_snoc]
    by_cases hnew : (c.run (runCalls .empty cs)).reservationsOf orderId = []
    · exact .inl hnew
    · right
      by_cases hnil : (runCalls .empty cs).reservationsOf orderId = []
      · obtain ⟨items, hc, hret, hrun⟩ := c.run_reserves hnil hnew
        refine ⟨items, ⟨cs, [], by rw [hc], hnil, hret, by simp⟩, ?_⟩
        have hsnd := reservationsOf_reserved_self (runCalls .empty cs) orderId items
        rw [hnil, List.map_nil, List.nil_append] at hsnd
        rw [hrun]
        exact rowsMatch_reservationRows hsnd
      · have hc : c ≠ .releaseForOrder orderId := fun heq =>
          hnew (heq ▸ run_releaseForOrder_rows (runCalls .empty cs) orderId)
        obtain ⟨items, ⟨pre, post, rfl, hpre, hret, hpost⟩, hmatch⟩ := ih.resolve_left hnil
        rw [c.run_reservationsOf hnil hc]
        refine ⟨items, ⟨pre, post ++ [c], by simp, hpre, hret, ?_⟩, hmatch⟩
        intro hmem
        rcases List.mem_append.mp hmem with h | h
        · exact hpost h
        · exact hc (List.mem_singleton.mp h).symm

/-- Every serial run of creates, reserves with positive quantities and releases
conserves stock. -/
theorem stock_conserved (calls : List Call) (hpos : ∀ c ∈ calls, c.Positive) : StockLaw calls := by
  have hvalid := runCalls_valid Store.valid_empty hpos
  refine ⟨fun id p hp => ?_, runCalls_rows calls⟩
  obtain ⟨payload, hby, hsum⟩ := runCalls_balance calls hp
  have hstock := hvalid.inStock id p hp
  have hheld := held_nonneg id hvalid.positive
  exact ⟨payload, hby, hsum, hstock, by omega⟩

theorem stock_conserved_reserve_twice_release :
    StockLaw [.createProduct 1 widget, .reserveForOrder 1 [⟨1, 3⟩, ⟨1, 4⟩],
      .reserveForOrder 2 [⟨1, 5⟩], .releaseForOrder 1] :=
  stock_conserved _ (by simp [Call.Positive])

end OrderMesh.Inventory
