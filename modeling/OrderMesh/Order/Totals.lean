import Mathlib.Algebra.Order.BigOperators.Group.List
import Mathlib.Algebra.Order.Floor.Ring
import Mathlib.Data.Rat.Floor
import Mathlib.Tactic.Linarith
import Mathlib.Tactic.Ring
import OrderMesh.Library.FixedPoint
import OrderMesh.Order.Service

namespace OrderMesh.Orders

/-- The sum over the stored items of price times quantity, in cents. -/
def lineTotal (items : List OrderItem) : Int := (items.map fun i => i.price * i.quantity).sum

/-- `str(order.total_amount)` in the payload of `OrderCreated`. -/
def totalText : Payload → Option String
  | .orderCreated _ _ totalAmount _ => some (FixedPoint.text ⟨totalAmount, 2⟩)
  | _ => none

/-- The stored total is that of the stored lines, the stored prices are positive, and
the new events publish the stored total. -/
structure TotalsAgree (order : Order) (new : List Payload) : Prop where
  total : order.totalAmount = lineTotal order.items
  positive : ∀ i ∈ order.items, 0 < i.price
  published : ∀ p ∈ new, ∃ text, totalText p = some text ∧
    FixedPoint.parse text = some ⟨order.totalAmount, 2⟩

/-- The cents nearest to a positive amount. -/
def nearest (x : Rat) : Int := ⌊x * 100 + 1 / 2⌋

/-- By how many cents a price exceeds the nearest ones. -/
def excess (price : Rat) : Rat := price * 100 - nearest price

/-- What the lines lose or gain when each price is rounded, in cents. -/
def roundingLoss (items : List OrderItemIn) : Rat :=
  (items.map fun i => excess i.price * (i.quantity : Rat)).sum

theorem numeric_eq_some {x : Rat} {cents : Int} (hx : 0 ≤ x) (h : numeric x = some cents) :
    cents = nearest x := by
  simp only [numeric, if_pos hx] at h
  split_ifs at h
  exact (Option.some.inj h).symm

theorem newItem_stored {item : OrderItemIn} {stored : OrderItem} (h : newItem item = some stored) :
    stored.price = nearest item.price ∧ stored.quantity = item.quantity := by
  simp only [newItem, bind, Option.bind_eq_some_iff] at h
  obtain ⟨productId, -, quantity, hquantity, price, hprice, heq⟩ := h
  cases heq
  exact ⟨numeric_eq_some item.price_pos.le hprice, integer_eq_some hquantity⟩

/-- A price is stored as zero when it is below half a cent. -/
theorem nearest_pos (x : Rat) : 0 < nearest x ↔ 1 / 200 ≤ x := by
  unfold nearest
  rw [Int.floor_pos]
  constructor <;> intro h <;> linarith

theorem prices_positive {items : List OrderItemIn} {stored : List OrderItem}
    (h : items.mapM newItem = some stored) :
    (∀ i ∈ stored, 0 < i.price) ↔ ∀ i ∈ items, 1 / 200 ≤ i.price := by
  induction items generalizing stored with
  | nil =>
    cases h
    simp
  | cons item items ih =>
    simp only [List.mapM_cons, bind, Option.bind_eq_some_iff] at h
    obtain ⟨first, hfirst, rest, hrest, heq⟩ := h
    cases heq
    simp only [List.forall_mem_cons, ih hrest, (newItem_stored hfirst).1, nearest_pos]

/-- The amount of the request is that of the stored lines and what rounding changed. -/
theorem amount_eq {items : List OrderItemIn} {stored : List OrderItem}
    (h : items.mapM newItem = some stored) :
    (items.map fun i => i.price * (i.quantity : Rat)).sum * 100 =
      (lineTotal stored : Rat) + roundingLoss items := by
  induction items generalizing stored with
  | nil =>
    cases h
    simp [lineTotal, roundingLoss]
  | cons item items ih =>
    simp only [List.mapM_cons, bind, Option.bind_eq_some_iff] at h
    obtain ⟨first, hfirst, rest, hrest, heq⟩ := h
    cases heq
    have hrec := ih hrest
    obtain ⟨hprice, hquantity⟩ := newItem_stored hfirst
    have hline : lineTotal (first :: rest) =
        nearest item.price * item.quantity + lineTotal rest := by
      rw [← hprice, ← hquantity]
      rfl
    have hloss : roundingLoss (item :: items) =
        excess item.price * (item.quantity : Rat) + roundingLoss items := rfl
    rw [hline, hloss, List.map_cons, List.sum_cons, add_mul, hrec, excess]
    push_cast
    ring

theorem excess_cents (n : Int) : excess (n / 100) = 0 := by
  have hround : (n : Rat) / 100 * 100 + 1 / 2 = (n : Rat) + 1 / 2 := by ring
  have hhalf : ⌊(1 / 2 : Rat)⌋ = 0 := by norm_num
  rw [excess, nearest, hround, Int.floor_intCast_add, hhalf]
  push_cast
  ring

theorem roundingLoss_cents {items : List OrderItemIn}
    (h : ∀ i ∈ items, ∃ n : Int, i.price = n / 100) : roundingLoss items = 0 := by
  apply List.sum_eq_zero
  intro x hx
  obtain ⟨i, hi, rfl⟩ := List.mem_map.mp hx
  obtain ⟨n, hn⟩ := h i hi
  rw [hn, excess_cents, zero_mul]

/-- A positive price in whole cents is at least one cent. -/
theorem half_cent_le {x : Rat} {n : Int} (hx : 0 < x) (hn : x = n / 100) : 1 / 200 ≤ x := by
  have hpos : (0 : Rat) < n := by linarith
  have hone : (1 : Rat) ≤ n := by exact_mod_cast Int.cast_pos.mp hpos
  linarith

theorem total_eq_sum (payload : OrderCreate) :
    total payload = (payload.items.map fun i => i.price * (i.quantity : Rat)).sum :=
  List.sum_eq_foldl.symm

theorem total_nonneg (payload : OrderCreate) : 0 ≤ total payload := by
  rw [total_eq_sum]
  apply List.sum_nonneg
  intro x hx
  obtain ⟨i, -, rfl⟩ := List.mem_map.mp hx
  have hquantity : (0 : Rat) ≤ i.quantity := by exact_mod_cast i.quantity_pos.le
  exact mul_nonneg i.price_pos.le hquantity

/-- Rounding the total gives the total of the rounded lines when the losses stay below
half a cent. -/
theorem nearest_total {payload : OrderCreate} {stored : List OrderItem}
    (h : payload.items.mapM newItem = some stored) :
    nearest (total payload) = lineTotal stored ↔
      -1 / 2 ≤ roundingLoss payload.items ∧ roundingLoss payload.items < 1 / 2 := by
  unfold nearest
  rw [total_eq_sum, amount_eq h, Int.floor_eq_iff]
  constructor
  · rintro ⟨hlow, hhigh⟩
    exact ⟨by linarith, by linarith⟩
  · rintro ⟨hlow, hhigh⟩
    exact ⟨by linarith, by linarith⟩

theorem commitAndPublish_cases {α : Type} (w : World) (after : SerialTable Order)
    (event : Payload) (returned : α) (o : Outcomes) :
    (commitAndPublish w after event returned o).2 = w ∨
      (commitAndPublish w after event returned o).2.orders = after ∧
        ∀ p ∈ (commitAndPublish w after event returned o).2.published.drop w.published.length,
          p = event := by
  obtain ⟨commit, refresh, publish⟩ := o
  have hnone : ∀ p ∈ w.published.drop w.published.length, p = event := by simp
  have hone : ∀ p ∈ (w.published ++ [event]).drop w.published.length, p = event := by simp
  cases commit with
  | refused => exact .inl rfl
  | unknown => exact .inr ⟨rfl, hnone⟩
  | ok =>
    cases refresh with
    | false => exact .inr ⟨rfl, hnone⟩
    | true =>
      cases publish with
      | refused => exact .inr ⟨rfl, hnone⟩
      | unknown => exact .inr ⟨rfl, hone⟩
      | ok => exact .inr ⟨rfl, hone⟩

/-- A committed row is that of the request, and the new events announce it. -/
theorem createOrder_committed {w : World} {customerId : Int} {payload : OrderCreate}
    {o : Outcomes} {order : Order}
    (h : (createOrder w customerId payload o).2.orders.get? w.orders.next = some order) :
    newOrder customerId payload = some order ∧
      ∀ p ∈ (createOrder w customerId payload o).2.published.drop w.published.length,
        p = orderCreated w.orders.next order := by
  have hfresh : w.orders.get? w.orders.next ≠ some order := by
    rw [SerialTable.get?_next]
    exact (Option.some_ne_none order).symm
  unfold createOrder at h ⊢
  cases hnew : newOrder customerId payload with
  | none =>
    rw [hnew] at h
    exact absurd h hfresh
  | some row =>
    rw [hnew] at h
    dsimp only at h ⊢
    rcases commitAndPublish_cases w (w.orders.insert row) (orderCreated w.orders.next row)
      (w.orders.next, row) o with hsame | ⟨hcommitted, hpublished⟩
    · rw [hsame] at h
      exact absurd h hfresh
    · rw [hcommitted, SerialTable.get?_insert, if_pos rfl] at h
      cases h
      exact ⟨rfl, hpublished⟩

/-- The announced total reads as the stored one, with its two decimals. -/
theorem orderCreated_total (id : Int) (order : Order) :
    ∃ text, totalText (orderCreated id order) = some text ∧
      FixedPoint.parse text = some ⟨order.totalAmount, 2⟩ :=
  ⟨_, rfl, FixedPoint.parse_text _⟩

/-- What agreement of a committed order comes down to in its request. -/
theorem agree_iff_lines {w : World} {customerId : Int} {payload : OrderCreate} {o : Outcomes}
    {order : Order}
    (h : (createOrder w customerId payload o).2.orders.get? w.orders.next = some order) :
    TotalsAgree order
        ((createOrder w customerId payload o).2.published.drop w.published.length) ↔
      (∀ i ∈ payload.items, 1 / 200 ≤ i.price) ∧
        nearest (total payload) = lineTotal order.items := by
  obtain ⟨hnew, hpublished⟩ := createOrder_committed h
  obtain ⟨htotal, hitems⟩ := newOrder_stored hnew
  have hnearest := numeric_eq_some (total_nonneg payload) htotal
  rw [← prices_positive hitems, ← hnearest]
  constructor
  · intro hagree
    exact ⟨hagree.positive, hagree.total⟩
  · rintro ⟨hpositive, hlines⟩
    refine ⟨hlines, hpositive, ?_⟩
    intro p hp
    rw [hpublished p hp]
    exact orderCreated_total _ _

/-- Prices in whole cents keep every committed order in agreement. -/
theorem agree_of_cents {w : World} {customerId : Int} {payload : OrderCreate} {o : Outcomes}
    {order : Order}
    (h : (createOrder w customerId payload o).2.orders.get? w.orders.next = some order)
    (hcents : ∀ i ∈ payload.items, ∃ n : Int, i.price = n / 100) :
    TotalsAgree order
      ((createOrder w customerId payload o).2.published.drop w.published.length) := by
  have hitems := (newOrder_stored (createOrder_committed h).1).2
  refine (agree_iff_lines h).mpr ⟨?_, ?_⟩
  · intro i hi
    obtain ⟨n, hn⟩ := hcents i hi
    exact half_cent_le i.price_pos hn
  · rw [nearest_total hitems, roundingLoss_cents hcents]
    norm_num

/-- A committed order agrees with its lines exactly when no price is below half a cent
and the roundings of the prices stay below half a cent together. -/
theorem totalsAgree_iff (w : World) (customerId : Int) (payload : OrderCreate) (o : Outcomes)
    (order : Order)
    (h : (createOrder w customerId payload o).2.orders.get? w.orders.next = some order) :
    TotalsAgree order
        ((createOrder w customerId payload o).2.published.drop w.published.length) ↔
      (∀ i ∈ payload.items, 1 / 200 ≤ i.price) ∧
        -1 / 2 ≤ roundingLoss payload.items ∧ roundingLoss payload.items < 1 / 2 := by
  have hitems := (newOrder_stored (createOrder_committed h).1).2
  rw [agree_iff_lines h, nearest_total hitems]

/-- A request for two units at ten and a third unit at a price in cents. -/
def wholeCents : OrderCreate where
  items := [⟨1, 2, 10, two_pos, Nat.ofNat_pos⟩, ⟨2, 1, 5 / 4, Int.zero_lt_one, by decide +kernel⟩]
  items_ne_nil := by simp

/-- Two units at 10.005, and one unit at 0.004. -/
def tenthsOfCents : OrderCreate where
  items := [⟨1, 2, 10005 / 1000, two_pos, by decide +kernel⟩,
    ⟨2, 1, 4 / 1000, Int.zero_lt_one, by decide +kernel⟩]
  items_ne_nil := by simp

def noOrders : World := ⟨.empty, []⟩

theorem totalsAgree_iff_wholeCents :
    TotalsAgree ⟨1, 2125, .pending, [⟨1, 2, 1000⟩, ⟨2, 1, 125⟩]⟩
        ((createOrder noOrders 1 wholeCents ⟨.ok, true, .ok⟩).2.published.drop
          noOrders.published.length) ↔
      (∀ i ∈ wholeCents.items, 1 / 200 ≤ i.price) ∧
        -1 / 2 ≤ roundingLoss wholeCents.items ∧ roundingLoss wholeCents.items < 1 / 2 :=
  totalsAgree_iff noOrders 1 wholeCents ⟨.ok, true, .ok⟩ _ (by decide +kernel)

/-- 20.014 is stored as 20.01, its lines as 2 × 10.01 (with half a cent away from
zero) and 0.00. -/
theorem tenthsOfCents_disagree :
    (createOrder noOrders 1 tenthsOfCents ⟨.ok, true, .ok⟩).2.orders.get? noOrders.orders.next =
        some ⟨1, 2001, .pending, [⟨1, 2, 1001⟩, ⟨2, 1, 0⟩]⟩ ∧
      ¬ TotalsAgree ⟨1, 2001, .pending, [⟨1, 2, 1001⟩, ⟨2, 1, 0⟩]⟩
        ((createOrder noOrders 1 tenthsOfCents ⟨.ok, true, .ok⟩).2.published.drop
          noOrders.published.length) := by
  refine ⟨by decide +kernel, ?_⟩
  intro hagree
  have htotal := hagree.total
  revert htotal
  decide

end OrderMesh.Orders
