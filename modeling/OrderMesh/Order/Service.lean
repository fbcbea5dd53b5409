import Mathlib.Algebra.Group.Int.Defs
import Mathlib.Algebra.Group.Nat.Defs
import OrderMesh.Library.SerialTable
import OrderMesh.Shared.Events.Schema

namespace OrderMesh.Orders

inductive OrderStatus
  | pending
  | confirmed
  | shipped
  | delivered
  | cancelled
  deriving DecidableEq

/-- A row of `order_items`; amounts are held in cents. -/
structure OrderItem where
  productId : Int
  quantity : Int
  price : Int
  deriving DecidableEq

structure Order where
  customerId : Int
  totalAmount : Int
  status : OrderStatus
  items : List OrderItem
  deriving DecidableEq

/-- An item the `OrderItemIn` schema accepts. -/
structure OrderItemIn where
  productId : Int
  quantity : Int
  price : Rat
  quantity_pos : 0 < quantity
  price_pos : 0 < price

structure OrderCreate where
  items : List OrderItemIn
  items_ne_nil : items ≠ []

def oneItem : OrderCreate where
  items := [⟨1, 2, 10, by decide, by decide +kernel⟩]
  items_ne_nil := by simp

/-- A `Numeric(12, 2)` column: two decimals, half away from zero, below 10^10. -/
def numeric (x : Rat) : Option Int :=
  let cents := if 0 ≤ x then (x * 100 + 1 / 2).floor else -(-x * 100 + 1 / 2).floor
  if cents.natAbs < 10 ^ 12 then some cents else none

/-- An `Integer` column. -/
def integer (n : Int) : Option Int := if -2 ^ 31 ≤ n ∧ n < 2 ^ 31 then some n else none

theorem integer_eq_some {n m : Int} (h : integer n = some m) : m = n := by
  unfold integer at h
  split_ifs at h
  exact (Option.some.inj h).symm

def newItem (item : OrderItemIn) : Option OrderItem := do
  let productId ← integer item.productId
  let quantity ← integer item.quantity
  let price ← numeric item.price
  return ⟨productId, quantity, price⟩

def total (payload : OrderCreate) : Rat :=
  (payload.items.map fun item => item.price * (item.quantity : Rat)).foldl (· + ·) 0

/-- The row that is committed; `none` when a column refuses its value. -/
def newOrder (customerId : Int) (payload : OrderCreate) : Option Order := do
  let customerId ← integer customerId
  let totalAmount ← numeric (total payload)
  let items ← payload.items.mapM newItem
  return ⟨customerId, totalAmount, .pending, items⟩

theorem newOrder_stored {customerId : Int} {payload : OrderCreate} {order : Order}
    (h : newOrder customerId payload = some order) :
    numeric (total payload) = some order.totalAmount ∧
      payload.items.mapM newItem = some order.items := by
  simp only [newOrder, bind, Option.bind_eq_some_iff] at h
  obtain ⟨c, -, t, ht, items, hitems, heq⟩ := h
  cases heq
  exact ⟨ht, hitems⟩

/-- A stored order has the lines that each item of the request became. -/
theorem exists_newItem {customerId : Int} {payload : OrderCreate} {order : Order}
    (h : newOrder customerId payload = some order) {stored : OrderItem}
    (hstored : stored ∈ order.items) : ∃ item, newItem item = some stored := by
  have hitems := (newOrder_stored h).2
  generalize payload.items = items, order.items = lines at hitems hstored
  induction items generalizing lines with
  | nil =>
    cases hitems
    cases hstored
  | cons item items ih =>
    simp only [List.mapM_cons, bind, Option.bind_eq_some_iff] at hitems
    obtain ⟨first, hfirst, rest, hrest, heq⟩ := hitems
    cases heq
    rcases List.mem_cons.mp hstored with rfl | hmem
    · exact ⟨item, hfirst⟩
    · exact ih rest hrest hmem

def orderCreated (id : Int) (order : Order) : Payload :=
  .orderCreated id order.customerId order.totalAmount
    (order.items.map fun i => ⟨i.productId, i.quantity⟩)

structure World where
  orders : SerialTable Order
  published : List Payload

/-- How the awaited steps of a call end; a refresh has no effect that could last. -/
structure Outcomes where
  commit : Reply
  refresh : Bool
  publish : Reply

/-- The awaited step that raised. -/
inductive Failure
  | commit
  | refresh
  | publish
  deriving DecidableEq

/-- Commit `after`, refresh the row and publish the event. -/
def commitAndPublish {α : Type} (w : World) (after : SerialTable Order) (event : Payload)
    (returned : α) (o : Outcomes) : Except Failure α × World :=
  let committed : World := { w with orders := after }
  let announced : World := { committed with published := w.published ++ [event] }
  match o.commit with
  | .refused => (.error .commit, w)
  | .unknown => (.error .commit, committed)
  | .ok =>
      if o.refresh then
        match o.publish with
        | .refused => (.error .publish, committed)
        | .unknown => (.error .publish, announced)
        | .ok => (.ok returned, announced)
      else (.error .refresh, committed)

def createOrder (w : World) (customerId : Int) (payload : OrderCreate) (o : Outcomes) :
    Except Failure (Int × Order) × World :=
  match newOrder customerId payload with
  | none => (.error .commit, w)
  | some order =>
      commitAndPublish w (w.orders.insert order) (orderCreated w.orders.next order)
        (w.orders.next, order) o

/-- A new order is pending and has at least one item. -/
theorem newOrder_eq_some {customerId : Int} {payload : OrderCreate} {order : Order}
    (h : newOrder customerId payload = some order) :
    order.status = .pending ∧ order.items ≠ [] := by
  simp only [newOrder, bind, Option.bind_eq_some_iff] at h
  obtain ⟨c, -, t, -, items, hitems, heq⟩ := h
  cases heq
  refine ⟨rfl, ?_⟩
  obtain ⟨item, rest, hp⟩ := List.exists_cons_of_ne_nil payload.items_ne_nil
  rw [hp, List.mapM_cons] at hitems
  simp only [bind, Option.bind_eq_some_iff] at hitems
  obtain ⟨first, -, others, -, heq⟩ := hitems
  cases heq
  exact List.cons_ne_nil _ _

def Order.withStatus (order : Order) (status : OrderStatus) : Order := { order with status }

def writeStatus (orders : SerialTable Order) (id : Int) (status : OrderStatus) :
    SerialTable Order := orders.modify id fun order => order.withStatus status

def orderCancelled (id : Int) (order : Order) : Payload := .orderCancelled id order.customerId

def cancelOrder (w : World) (id : Int) (order : Order) (o : Outcomes) :
    Except Failure Order × World :=
  commitAndPublish w (writeStatus w.orders id .cancelled) (orderCancelled id order)
    (order.withStatus .cancelled) o

def setStatus (orders : SerialTable Order) (id : Int) (status : OrderStatus) : SerialTable Order :=
  match orders.get? id with
  | none => orders
  | some order => if order.status = status then orders else writeStatus orders id status

/-- The identity a request carries: `customerId` is `int(user_id)`, `none` when
the text is not an integer. -/
structure Caller where
  admin : Bool
  customerId : Option Int

/-- The statuses the route refuses to cancel. -/
def notCancellable (status : OrderStatus) : Bool :=
  status = .shipped ∨ status = .delivered ∨ status = .cancelled

inductive Refusal
  | notFound
  | valueError
  | conflict (status : OrderStatus)
  deriving DecidableEq

/-- What the route does before it calls the service: find the order and check it. -/
def loadCancellable (orders : SerialTable Order) (caller : Caller) (id : Int) :
    Except Refusal Order :=
  match orders.get? id with
  | none => .error .notFound
  | some order =>
      if caller.admin ∨ caller.customerId = some order.customerId then
        if notCancellable order.status then .error (.conflict order.status) else .ok order
      else if caller.customerId = none then .error .valueError
      else .error .notFound

def statusOf (orders : SerialTable Order) (id : Int) : Option OrderStatus :=
  (orders.get? id).map Order.status

theorem statusOf_insert (orders : SerialTable Order) (order : Order) (id : Int) :
    statusOf (orders.insert order) id =
      if id = orders.next then some order.status else statusOf orders id := by
  unfold statusOf
  rw [SerialTable.get?_insert]
  split_ifs <;> rfl

theorem statusOf_writeStatus (orders : SerialTable Order) (id j : Int) (status : OrderStatus) :
    statusOf (writeStatus orders id status) j =
      if j = id then (statusOf orders j).map fun _ => status else statusOf orders j := by
  unfold statusOf writeStatus
  rw [SerialTable.get?_modify]
  split_ifs
  · cases orders.get? j <;> rfl
  · rfl

/-- The setter moves an existing order to the status, wherever it was. -/
theorem statusOf_setStatus (orders : SerialTable Order) (id j : Int) (status : OrderStatus) :
    statusOf (setStatus orders id status) j =
      if j = id then (statusOf orders j).map fun _ => status else statusOf orders j := by
  unfold setStatus
  cases h : orders.get? id with
  | none =>
    by_cases hj : j = id
    · subst hj
      simp [statusOf, h]
    · simp [hj]
  | some order =>
    by_cases hs : order.status = status
    · by_cases hj : j = id
      · subst hj
        simp [statusOf, h, hs]
      · simp [hs, hj]
    · simp only [if_neg hs, statusOf_writeStatus]

theorem loadCancellable_eq_ok {orders : SerialTable Order} {caller : Caller} {id : Int}
    {order : Order} (h : loadCancellable orders caller id = .ok order) :
    orders.get? id = some order ∧ notCancellable order.status = false := by
  unfold loadCancellable at h
  cases hg : orders.get? id with
  | none => rw [hg] at h; cases h
  | some row =>
    rw [hg] at h
    dsimp only at h
    split_ifs at h with hc hn
    · cases h
      exact ⟨rfl, by simpa using hn⟩

end OrderMesh.Orders
