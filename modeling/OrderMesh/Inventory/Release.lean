import OrderMesh.Inventory.Reservation

namespace OrderMesh.Inventory

/-- Whether the call reserves or releases the order. -/
def Call.Concerns (orderId : Int) : Call → Prop
  | .createProduct .. => False
  | .reserveForOrder other _ => other = orderId
  | .releaseForOrder other => other = orderId

def Store.stockOf (s : Store) (productId : Int) : Int :=
  ((s.products.get? productId).map Product.quantityAvailable).getD 0

/-- The same rows in both tables; the sequence of row ids may have moved on. -/
structure Store.SameTables (s t : Store) : Prop where
  products : s.products = t.products
  reservations : s.reservations.rows = t.reservations.rows

/-- The release of an order that was reserved between the stores `before` and `after`,
run on a later store `s`. -/
structure ReleaseLaw (before after s : Store) (orderId : Int) (items : List Item)
    (r : List Int × Store) : Prop where
  keys : r.2.products.keys = s.products.keys
  stock : ∀ p, r.2.products.get? p =
    (s.products.get? p).map fun product => product.add (before.stockOf p - after.stockOf p)
  rows : r.2.reservations.rows = s.reservations.rows.filter fun row => ¬ row.2.orderId = orderId
  returned : r.1.Nodup ∧ ∀ p, p ∈ r.1 ↔ p ∈ items.map Item.productId
  again : releaseForOrder r.2 orderId = ([], r.2)

theorem released_of_nil {s : Store} {orderId : Int} (h : s.reservationsOf orderId = []) :
    s.released orderId = s := by
  apply Store.ext
  · apply Dict.ext_get? (keys_released s orderId)
    intro k
    rw [get?_released, h]
    have hzero : held [] k = 0 := rfl
    cases s.products.get? k <;> simp [hzero]
  · refine SerialTable.ext_rows ?_ rfl
    rw [rows_released]
    apply List.filter_eq_self.mpr
    intro r hr
    have hnot := List.filter_eq_nil_iff.mp h r hr
    simpa using hnot

/-- A release of an order without rows is no exception. -/
theorem releaseForOrder_eq_released (s : Store) (orderId : Int) :
    releaseForOrder s orderId = (productIds (s.reservationsOf orderId), s.released orderId) := by
  rw [releaseForOrder_eq]
  by_cases h : s.reservationsOf orderId = []
  · rw [if_pos h, released_of_nil h, h]
    rfl
  · rw [if_neg h]

theorem releaseForOrder_again (s : Store) (orderId : Int) :
    releaseForOrder (s.released orderId) orderId = ([], s.released orderId) := by
  have hnil := reservationsOf_released_self s orderId
  rw [releaseForOrder_eq, if_pos hnil]

/-- Releases of different orders change the stock by their own rows and delete their own rows. -/
theorem released_comm (s : Store) {a b : Int} (h : a ≠ b) :
    (s.released a).released b = (s.released b).released a := by
  apply Store.ext
  · apply Dict.ext_get?
    · simp only [keys_released]
    · intro k
      rw [get?_released, get?_released, get?_released, get?_released,
        reservationsOf_released_other s h.symm, reservationsOf_released_other s h]
      cases s.products.get? k with
      | none => rfl
      | some p => simp [Int.add_comm]
  · refine SerialTable.ext_rows ?_ rfl
    rw [rows_released, rows_released, rows_released, rows_released, List.filter_filter,
      List.filter_filter]
    apply List.filter_congr
    intro r hr
    exact Bool.and_comm ..

theorem rows_released_reserved (s : Store) (orderId : Int) (items : List Item) :
    ((s.reserved orderId items).released orderId).reservations.rows =
      (s.released orderId).reservations.rows := by
  obtain ⟨new, hrows, hnew, -⟩ := rows_reserved_match s orderId items
  have hnone : (new.filter fun r => ¬ r.2.orderId = orderId) = [] := by
    apply List.filter_eq_nil_iff.mpr
    intro r hr
    simp [hnew r hr]
  rw [rows_released, rows_released, hrows, List.filter_append, hnone, List.append_nil]

/-- Reserving adds the demand to what the order holds of a product. -/
theorem held_reservationsOf_reserved (s : Store) (orderId : Int) (items : List Item) (k : Int) :
    held ((s.reserved orderId items).reservationsOf orderId) k =
      held (s.reservationsOf orderId) k + demand items k := by
  have hafter := held_rows_released (s.reserved orderId items) orderId k
  have hbefore := held_rows_released s orderId k
  have hboth := held_rows_reserved s orderId items k
  rw [rows_released_reserved] at hafter
  omega

/-- What a reservation took and wrote, its release gives back and deletes. -/
theorem released_reserved (s : Store) (orderId : Int) (items : List Item) :
    ((s.reserved orderId items).released orderId).SameTables (s.released orderId) where
  products := by
    apply Dict.ext_get?
    · rw [keys_released, keys_reserved, keys_released]
    · intro k
      rw [get?_released, get?_reserved, get?_released, held_reservationsOf_reserved]
      cases s.products.get? k with
      | none => rfl
      | some p => simp
  reservations := rows_released_reserved s orderId items

/-- Calls for other orders, and the order's own reservation delivered again, leave its
rows alone. -/
theorem reservationsOf_runCalls (s : Store) {orderId : Int} {items : List Item} {calls : List Call}
    (hcalls : ∀ c ∈ calls, c.Concerns orderId → c = .reserveForOrder orderId items) :
    (runCalls (s.reserved orderId items) calls).reservationsOf orderId =
      (s.reserved orderId items).reservationsOf orderId := by
  induction calls using List.reverseRecOn with
  | nil => rfl
  | append_singleton calls c ih =>
    have hrest := ih fun d hd => hcalls d (List.mem_append_left _ hd)
    have hc : c.Concerns orderId → c = .reserveForOrder orderId items := hcalls c (by simp)
    rw [runCalls_snoc, ← hrest]
    rcases c.run_cases (runCalls (s.reserved orderId items) calls) with h |
      ⟨id, payload, -, -, -, h⟩ | ⟨other, is, rfl, hnil, -, h⟩ | ⟨other, rfl, -, h⟩
    · rw [h]
    · rw [h]
      rfl
    · rw [h]
      by_cases heq : other = orderId
      · cases hc heq
        have hempty : items = [] := by
          by_contra hne
          exact reservationsOf_reserved_ne_nil s orderId hne (hrest ▸ hnil)
        rw [hempty, reserved_nil]
      · exact reservationsOf_reserved_other _ is (Ne.symm heq)
    · rw [h]
      refine reservationsOf_released_other _ fun heq => ?_
      cases hc heq.symm

/-- Reserving lowers the stock by the demand of the items that it covers. -/
theorem stockOf_reserved {s : Store} {orderId : Int} {items : List Item} (hcovers : s.Covers items)
    (p : Int) : s.stockOf p - (s.reserved orderId items).stockOf p = demand items p := by
  unfold Store.stockOf
  rw [get?_reserved]
  cases hget : s.products.get? p with
  | some product => simp
  | none =>
    have hp : p ∉ items.map Item.productId := by
      intro hmem
      obtain ⟨product, hsome, -⟩ := hcovers p hmem
      rw [hget] at hsome
      cases hsome
    simp [demand_eq_zero hp]

theorem mem_productIds_reserved {s : Store} {orderId : Int} (hnil : s.reservationsOf orderId = [])
    (items : List Item) (p : Int) :
    p ∈ productIds ((s.reserved orderId items).reservationsOf orderId) ↔
      p ∈ items.map Item.productId := by
  have hsnd := reservationsOf_reserved_self s orderId items
  rw [hnil, List.map_nil, List.nil_append] at hsnd
  rw [productIds, List.mem_dedup]
  exact (rowsMatch_reservationRows hsnd).products p

/-- The release of an order after calls for other orders. -/
theorem release_later {s : Store} {orderId : Int} {items : List Item}
    (hnil : s.reservationsOf orderId = []) (hcovers : s.Covers items) {calls : List Call}
    (hcalls : ∀ c ∈ calls, c.Concerns orderId → c = .reserveForOrder orderId items) :
    ReleaseLaw s (s.reserved orderId items) (runCalls (s.reserved orderId items) calls) orderId
      items
      (releaseForOrder (runCalls (s.reserved orderId items) calls) orderId) := by
  have hrows := reservationsOf_runCalls s hcalls
  rw [releaseForOrder_eq_released]
  refine ⟨keys_released _ _, fun p => ?_, rows_released _ _, ⟨List.nodup_dedup _, fun p => ?_⟩,
    releaseForOrder_again _ _⟩
  · have hheld : held ((s.reserved orderId items).reservationsOf orderId) p = demand items p := by
      rw [held_reservationsOf_reserved, hnil]
      exact Int.zero_add _
    rw [get?_released, hrows, hheld, stockOf_reserved hcovers]
  · rw [hrows]
    exact mem_productIds_reserved hnil items p

/-- In every serial run, releasing an order undoes its own reservation and nothing else. -/
theorem release_undoes_reservation (pre later : List Call) (orderId : Int) (items : List Item)
    (hnil : (runCalls .empty pre).reservationsOf orderId = [])
    (hok : (reserveForOrder (runCalls .empty pre) orderId items).1 = true)
    (hlater : ∀ c ∈ later, c.Concerns orderId → c = .reserveForOrder orderId items) :
    let before := runCalls .empty pre
    let after := (reserveForOrder before orderId items).2
    let s := runCalls after later
    ReleaseLaw before after s orderId items (releaseForOrder s orderId) ∧
      (∀ a b, a ≠ b →
        (releaseForOrder (releaseForOrder s a).2 b).2 =
          (releaseForOrder (releaseForOrder s b).2 a).2 ∧
        (releaseForOrder (releaseForOrder s a).2 b).1 = (releaseForOrder s b).1) ∧
      (releaseForOrder after orderId).2.SameTables before ∧
      (∀ o is, (reserveForOrder s o is).1 = true →
        (releaseForOrder (reserveForOrder s o is).2 o).2.SameTables (releaseForOrder s o).2) := by
  have hcovers : (runCalls .empty pre).Covers items := by
    rw [reserveForOrder_eq, if_pos hnil] at hok
    by_contra hnot
    rw [if_neg hnot] at hok
    cases hok
  have hafter : (reserveForOrder (runCalls .empty pre) orderId items).2 =
      (runCalls .empty pre).reserved orderId items := by
    rw [reserveForOrder_eq, if_pos hnil, if_pos hcovers]
  simp only [hafter]
  refine ⟨release_later hnil hcovers hlater, fun a b hab => ?_, ?_, fun o is _ => ?_⟩
  · simp only [releaseForOrder_eq_released]
    exact ⟨released_comm _ hab, by rw [reservationsOf_released_other _ hab.symm]⟩
  · have hundo := released_reserved (runCalls .empty pre) orderId items
    rw [released_of_nil hnil] at hundo
    rw [releaseForOrder_eq_released]
    exact hundo
  · rw [releaseForOrder_eq_released, releaseForOrder_eq_released, reserveForOrder_eq]
    split_ifs
    · exact released_reserved _ o is
    · exact ⟨rfl, rfl⟩
    · exact ⟨rfl, rfl⟩

/-- Order 2 takes from the same product and is released in between, both orders are
delivered again. -/
theorem release_undoes_reservation_shared :
    ReleaseLaw (runCalls .empty [.createProduct 1 widget])
      (reserveForOrder (runCalls .empty [.createProduct 1 widget]) 1 [⟨1, 3⟩, ⟨1, 2⟩]).2
      (runCalls (reserveForOrder (runCalls .empty [.createProduct 1 widget]) 1 [⟨1, 3⟩, ⟨1, 2⟩]).2
        [.reserveForOrder 2 [⟨1, 4⟩], .reserveForOrder 1 [⟨1, 3⟩, ⟨1, 2⟩], .releaseForOrder 2])
      1 [⟨1, 3⟩, ⟨1, 2⟩]
      (releaseForOrder
        (runCalls (reserveForOrder (runCalls .empty [.createProduct 1 widget]) 1 [⟨1, 3⟩, ⟨1, 2⟩]).2
          [.reserveForOrder 2 [⟨1, 4⟩], .reserveForOrder 1 [⟨1, 3⟩, ⟨1, 2⟩],
            .releaseForOrder 2]) 1) :=
  (release_undoes_reservation [.createProduct 1 widget]
    [.reserveForOrder 2 [⟨1, 4⟩], .reserveForOrder 1 [⟨1, 3⟩, ⟨1, 2⟩], .releaseForOrder 2] 1
    [⟨1, 3⟩, ⟨1, 2⟩] rfl rfl (by simp [Call.Concerns])).1

end OrderMesh.Inventory
