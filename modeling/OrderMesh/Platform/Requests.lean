import Mathlib.Data.List.Sort
import OrderMesh.Platform.Lookups
import OrderMesh.Shared.Cache

namespace OrderMesh.Platform

/-- What `cache.py` offers, over a cache of its own. -/
structure CacheApi (ρ : Type) where
  getJson : String → EStateM Raised ρ (Option Row)
  setJson : String → Row → EStateM Raised ρ Unit
  invalidate : List String → EStateM Raised ρ Unit

def redisCache : CacheApi (Redis Row) where
  getJson := Cache.getJson
  setJson := Cache.setJson
  invalidate := Cache.invalidate

/-- No cache at all: every lookup misses. -/
def noCache : CacheApi Unit where
  getJson _ := pure none
  setJson _ _ := pure ()
  invalidate _ := pure ()

structure Site (ρ : Type) where
  databases : Databases
  published : List Payload
  cache : ρ

abbrev Service (ρ : Type) := EStateM Raised (Site ρ)

namespace Service

variable {ρ α : Type}

def databases : Service ρ Databases := fun s => .ok s.databases s

def onCache (x : EStateM Raised ρ α) : Service ρ α := fun s =>
  match x s.cache with
  | .ok a cache => .ok a { s with cache := cache }
  | .error e cache => .error e { s with cache := cache }

def commit (c : Commit) : Service ρ Unit := fun s =>
  .ok () { s with databases := s.databases.commit c }

def publish (p : Payload) : Service ρ Unit := fun s =>
  .ok () { s with published := s.published ++ [p] }

end Service

open Service

variable {ρ : Type} (cache : CacheApi ρ)

/-- The three lookups by id: a cached row is checked and replied, another one is loaded,
checked and cached first. -/
def lookUp (key : Key) (check : Row → Except Raised Unit) (detail : String) : Service ρ Row := do
  match ← onCache (cache.getJson (cacheKey key)) with
  | some cached =>
      liftExcept (check cached)
      return cached
  | none =>
      match (← databases).row key with
      | none => throw (.httpException 404 detail)
      | some row =>
          liftExcept (check row)
          onCache (cache.setJson (cacheKey key) row)
          return row

def statusText : Orders.OrderStatus → String
  | .pending => "PENDING"
  | .confirmed => "CONFIRMED"
  | .shipped => "SHIPPED"
  | .delivered => "DELIVERED"
  | .cancelled => "CANCELLED"

/-- What the routes raise for a refusal. -/
def refusal : Orders.Refusal → Raised
  | .notFound => .httpException 404 "Order not found"
  | .valueError => .valueError
  | .conflict status =>
      .httpException 409 ("Cannot cancel an order in status " ++ statusText status)

/-- `int(identity.user_id)`. -/
def intUserId (caller : Orders.Caller) : Except Raised Int :=
  match caller.customerId with
  | none => .error .valueError
  | some customerId => .ok customerId

/-- `cached["customer_id"]`. -/
def Row.customerId : Row → Except Raised Int
  | .order _ o => .ok o.customerId
  | .product _ _ | .shipment _ _ => .error .keyError

/-- The check of a row that was found, cached or not. -/
def checkOwner (caller : Orders.Caller) (row : Row) : Except Raised Unit := do
  if !caller.admin then
    if (← row.customerId) ≠ (← intUserId caller) then throw (refusal .notFound)

def createOrder (caller : Orders.Caller) (payload : Orders.OrderCreate) : Service ρ Row := do
  let customerId ← liftExcept (intUserId caller)
  let id := (← databases).orders.next
  match Orders.newOrder customerId payload with
  | none => throw .databaseError
  | some order =>
      commit (.createOrder customerId payload)
      Service.publish (Orders.orderCreated id order)
      return .order id order

/-- `list_orders` of the service: the orders of a customer or of all, newest first. -/
def ordersOf (customerId : Option Int) : Service ρ (List Row) := do
  let rows := (← databases).orders.rows.filter fun r =>
    customerId.all fun customerId => r.2.customerId = customerId
  return (rows.insertionSort fun a b => b.1 ≤ a.1).map fun r => .order r.1 r.2

def listOrders (caller : Orders.Caller) : Service ρ (List Row) := do
  if caller.admin then ordersOf none
  else ordersOf (some (← liftExcept (intUserId caller)))

def getOrder (caller : Orders.Caller) (id : Int) : Service ρ Row :=
  lookUp cache (.order id) (checkOwner caller) "Order not found"

/-- `cancel_order` of the service, after the checks of the route. -/
def cancelOrder (caller : Orders.Caller) (id : Int) : Service ρ Row := do
  match Orders.loadCancellable (← databases).orders caller id with
  | .error r => throw (refusal r)
  | .ok order =>
      commit (.setStatus id .cancelled)
      onCache (cache.invalidate [cacheKey (.order id)])
      Service.publish (Orders.orderCancelled id order)
      return .order id (order.withStatus .cancelled)

def setStatus (id : Int) (status : Orders.OrderStatus) : Service ρ Unit := do
  match (← databases).orders.get? id with
  | none => return
  | some order =>
      if order.status = status then return
      commit (.setStatus id status)
      onCache (cache.invalidate [cacheKey (.order id)])

def createProduct (id : Int) (payload : Inventory.ProductCreate) : Service ρ Row := do
  match Inventory.createProduct (← databases).stock id payload with
  | none => throw (.httpException 409 "SKU already exists")
  | some (product, _) =>
      commit (.createProduct id payload)
      return .product id product

def listProducts : Service ρ (List Row) := do
  let rows := (← databases).stock.products.entries
  return (rows.insertionSort fun a b => a.1 ≤ b.1).map fun r => .product r.1 r.2

def getProduct (id : Int) : Service ρ Row :=
  lookUp cache (.product id) (fun _ => .ok ()) "Product not found"

/-- The locking select of a transaction. -/
def lock (s : Inventory.Store) (ids : List Int) : Locked ids where
  products := s.selectForUpdate ids
  subset := by
    intro id hid
    obtain ⟨e, he, rfl⟩ := List.mem_map.mp hid
    exact of_decide_eq_true (List.mem_filter.mp he).2

def invalidateProducts (ids : List Int) : Service ρ Unit :=
  ids.forM fun id => onCache (cache.invalidate [cacheKey (.product id)])

def reserveForOrder (orderId : Int) (items : List Item) : Service ρ Bool := do
  let s := (← databases).stock
  if (s.reservationsOf orderId).isEmpty then
    let wanted := Inventory.wantedOf items
    let locked := lock s wanted.keys
    if Inventory.covers wanted locked.products then
      commit (.reserveForOrder orderId items locked)
      invalidateProducts cache wanted.keys
      return true
    else return false
  else return true

def releaseForOrder (orderId : Int) : Service ρ (List Int) := do
  let s := (← databases).stock
  let rows := s.reservationsOf orderId
  if rows.isEmpty then return []
  else
    commit (.releaseForOrder rows (lock s (Inventory.productIds rows)))
    invalidateProducts cache (Inventory.productIds rows)
    return Inventory.productIds rows

def onOrderCreated (orderId : Int) (items : List Item) : Service ρ Unit := do
  if ← reserveForOrder cache orderId items then Service.publish (.stockReserved orderId items)
  else Service.publish (.stockUnavailable orderId)

def onOrderCancelled (orderId : Int) : Service ρ Unit := do
  let released ← releaseForOrder cache orderId
  if !released.isEmpty then Service.publish (.stockReleased orderId released)

def getShipment (id : Int) : Service ρ Row :=
  lookUp cache (.shipment id) (fun _ => .ok ()) "Shipment not found"

def createShipment (orderId : Int) (courier : String) (year : Nat) :
    Service ρ (Int × Shipping.Shipment) := do
  let shipments := (← databases).shipments
  match Shipping.existing shipments orderId with
  | some shipment => return shipment
  | none =>
      match Shipping.insertShipment shipments orderId courier year with
      | none => throw .databaseError
      | some (shipment, _) =>
          commit (.createShipment orderId courier year)
          return shipment

def onStockReserved (orderId : Int) (courier : String) (year : Nat) : Service ρ Unit := do
  Service.publish (Shipping.shipmentCreated (← createShipment orderId courier year))

def updateShipmentStatus (id : Int) (status : Shipping.ShipmentStatus) : Service ρ Row := do
  match (← databases).shipments.get? id with
  | none => throw (.httpException 404 "Shipment not found")
  | some shipment =>
      commit (.updateStatus id status)
      onCache (cache.invalidate [cacheKey (.shipment id)])
      if status = .delivered then Service.publish (Shipping.shipmentDelivered shipment)
      return .shipment id { shipment with status := status }

/-- A request or the delivery of an event. -/
inductive Operation
  | createOrder (caller : Orders.Caller) (payload : Orders.OrderCreate)
  | listOrders (caller : Orders.Caller)
  | getOrder (caller : Orders.Caller) (id : Int)
  | cancelOrder (caller : Orders.Caller) (id : Int)
  | setStatus (id : Int) (status : Orders.OrderStatus)
  | createProduct (id : Int) (payload : Inventory.ProductCreate)
  | listProducts
  | getProduct (id : Int)
  | onOrderCreated (orderId : Int) (items : List Item)
  | onOrderCancelled (orderId : Int)
  | getShipment (id : Int)
  | onStockReserved (orderId : Int) (courier : String) (year : Nat)
  | updateShipmentStatus (id : Int) (status : Shipping.ShipmentStatus)

/-- The body of a reply; a handler has none. -/
inductive Reply
  | row (row : Row)
  | rows (rows : List Row)
  | handled
  deriving DecidableEq

def serve : Operation → Service ρ Reply
  | .createOrder caller payload => .row <$> createOrder caller payload
  | .listOrders caller => .rows <$> listOrders caller
  | .getOrder caller id => .row <$> getOrder cache caller id
  | .cancelOrder caller id => .row <$> cancelOrder cache caller id
  | .setStatus id status => (fun _ => .handled) <$> setStatus cache id status
  | .createProduct id payload => .row <$> createProduct id payload
  | .listProducts => .rows <$> listProducts
  | .getProduct id => .row <$> getProduct cache id
  | .onOrderCreated orderId items => (fun _ => .handled) <$> onOrderCreated cache orderId items
  | .onOrderCancelled orderId => (fun _ => .handled) <$> onOrderCancelled cache orderId
  | .getShipment id => .row <$> getShipment cache id
  | .onStockReserved orderId courier year =>
      (fun _ => .handled) <$> onStockReserved orderId courier year
  | .updateShipmentStatus id status => .row <$> updateShipmentStatus cache id status

/-- What an operation replies with, and the site after it. -/
def outcome {α : Type} (x : Service ρ α) (s : Site ρ) : Except Raised α × Site ρ :=
  match x s with
  | .ok a s' => (.ok a, s')
  | .error e s' => (.error e, s')

def reply (s : Site ρ) (op : Operation) : Except Raised Reply := (outcome (serve cache op) s).1

def after (s : Site ρ) (ops : List Operation) : Site ρ :=
  ops.foldl (fun s op => (outcome (serve cache op) s).2) s

theorem after_append (s : Site ρ) (ops : List Operation) (op : Operation) :
    after cache s (ops ++ [op]) = (outcome (serve cache op) (after cache s ops)).2 := by
  rw [after, List.foldl_append]
  rfl

theorem outcome_map {α β : Type} (f : α → β) (x : Service ρ α) (s : Site ρ) :
    outcome (f <$> x) s = ((outcome x s).1.map f, (outcome x s).2) := by
  simp only [outcome, Functor.map, EStateM.map]
  cases x s <;> rfl

section Outcome

variable {α β : Type} (s : Site ρ)

@[simp] theorem outcome_pure (a : α) : outcome (pure a : Service ρ α) s = (.ok a, s) := rfl

@[simp] theorem outcome_databases (f : Databases → Service ρ α) :
    outcome (databases >>= f) s = outcome (f s.databases) s := rfl

@[simp] theorem outcome_commit (c : Commit) (f : Unit → Service ρ α) :
    outcome (commit c >>= f) s =
      outcome (f ()) { s with databases := s.databases.commit c } := rfl

variable {s} in
theorem outcome_bind_ok {x : Service ρ α} {a : α} {s' : Site ρ} (h : x s = .ok a s')
    (f : α → Service ρ β) : outcome (x >>= f) s = outcome (f a) s' := by
  simp only [outcome, Bind.bind, EStateM.bind, h]

theorem onCache_invalidate (names : List String) (s : Site (Redis Row)) :
    onCache (redisCache.invalidate names) s =
      .ok () { s with cache := s.cache.cleared names } := by
  simp only [onCache, redisCache, Cache.run_invalidate]

end Outcome

theorem invalidateProducts_noCache (ids : List Int) (t : Site Unit) :
    invalidateProducts noCache ids t = .ok () t := by
  induction ids with
  | nil => rfl
  | cons id ids ih => exact ih

/-- The requests run the functions of the services. -/
theorem reserveForOrder_noCache (orderId : Int) (items : List Item) (t : Site Unit) :
    outcome (reserveForOrder noCache orderId items) t =
      (.ok (Inventory.reserveForOrder t.databases.stock orderId items).1,
        { t with
          databases :=
            { t.databases with
              stock := (Inventory.reserveForOrder t.databases.stock orderId items).2 } }) := by
  unfold Inventory.reserveForOrder Inventory.reserveLocked
  rw [reserveForOrder, outcome_databases]
  by_cases hrows : (t.databases.stock.reservationsOf orderId).isEmpty = true
  · by_cases hcovers : Inventory.covers (Inventory.wantedOf items)
        (t.databases.stock.selectForUpdate (Inventory.wantedOf items).keys) = true
    · simp only [hrows, hcovers, lock, if_true, outcome_commit,
        outcome_bind_ok (invalidateProducts_noCache _ _)]
      rfl
    · simp only [hrows, hcovers, lock, if_true]
      rfl
  · simp only [hrows]
    rfl

theorem releaseForOrder_noCache (orderId : Int) (t : Site Unit) :
    outcome (releaseForOrder noCache orderId) t =
      (.ok (Inventory.releaseForOrder t.databases.stock orderId).1,
        { t with
          databases :=
            { t.databases with
              stock := (Inventory.releaseForOrder t.databases.stock orderId).2 } }) := by
  unfold Inventory.releaseForOrder
  rw [releaseForOrder, outcome_databases]
  by_cases hrows : (t.databases.stock.reservationsOf orderId).isEmpty = true
  · simp only [hrows]
    rfl
  · simp only [if_neg hrows, outcome_commit, lock,
      outcome_bind_ok (invalidateProducts_noCache _ _)]
    rfl

theorem setStatus_noCache (id : Int) (status : Orders.OrderStatus) (t : Site Unit) :
    outcome (setStatus noCache id status) t =
      (.ok (), { t with
        databases :=
          { t.databases with orders := Orders.setStatus t.databases.orders id status } }) := by
  unfold Orders.setStatus
  rw [setStatus, outcome_databases]
  cases t.databases.orders.get? id with
  | none => rfl
  | some order =>
    dsimp only
    split_ifs
    · rfl
    · rfl

section Lookups

variable (key : Key) (check : Row → Except Raised Unit) (detail : String)

/-- The reply of a lookup that reads the database. -/
def fromDatabase (d : Databases) : Except Raised Row :=
  match d.row key with
  | none => .error (.httpException 404 detail)
  | some row => (check row).map fun _ => row

theorem lookUp_noCache (t : Site Unit) :
    outcome (lookUp noCache key check detail) t =
      (fromDatabase key check detail t.databases, t) := by
  simp only [outcome, lookUp, onCache, noCache, Bind.bind, EStateM.bind, pure, EStateM.pure,
    Service.databases, fromDatabase]
  cases t.databases.row key with
  | none => rfl
  | some row =>
    dsimp only
    cases check row with
    | error e => rfl
    | ok a => rfl

theorem lookUp_found {s : Site (Redis Row)} {row : Row}
    (h : s.cache.found (cacheKey key) = some row) :
    outcome (lookUp redisCache key check detail) s =
      ((check row).map fun _ => row, { s with cache := s.cache.next }) := by
  simp only [outcome, lookUp, onCache, redisCache, Bind.bind, EStateM.bind, Cache.run_getJson, h]
  cases check row with
  | error e => rfl
  | ok a => rfl

theorem lookUp_missed {s : Site (Redis Row)} (h : s.cache.found (cacheKey key) = none) :
    outcome (lookUp redisCache key check detail) s = (fromDatabase key check detail s.databases,
      { s with
        cache :=
          match fromDatabase key check detail s.databases with
          | .ok row => s.cache.next.stored (cacheKey key) row
          | .error _ => s.cache.next }) := by
  simp only [outcome, lookUp, onCache, redisCache, Bind.bind, EStateM.bind, Cache.run_getJson, h,
    Service.databases, fromDatabase]
  cases s.databases.row key with
  | none => rfl
  | some row =>
    dsimp only
    cases check row with
    | error e => rfl
    | ok a =>
      simp only [liftExcept, pure, EStateM.pure, EStateM.bind, onCache, Cache.run_setJson,
        Except.map]

variable {key check detail}

/-- What a lookup replies was found in the database and passed the check. -/
theorem fromDatabase_eq_ok {d : Databases} {row : Row}
    (h : fromDatabase key check detail d = .ok row) :
    d.row key = some row ∧ check row = .ok () := by
  unfold fromDatabase at h
  cases hrow : d.row key with
  | none => simp [hrow] at h
  | some found =>
    cases hc : check found with
    | error e => simp [hrow, hc, Except.map] at h
    | ok a =>
      simp only [hrow, hc, Except.map, Except.ok.injEq] at h
      exact ⟨congrArg some h, h ▸ hc⟩

theorem fromDatabase_eq_error {d : Databases} {e : Raised}
    (h : fromDatabase key check detail d = .error e) :
    e = .httpException 404 detail ∨ ∃ row, check row = .error e := by
  unfold fromDatabase at h
  cases hrow : d.row key with
  | none =>
    simp only [hrow, Except.error.injEq] at h
    exact .inl h.symm
  | some found =>
    cases hc : check found with
    | error e' =>
      simp only [hrow, hc, Except.map, Except.error.injEq] at h
      exact .inr ⟨found, h ▸ hc⟩
    | ok a => simp [hrow, hc, Except.map] at h

end Lookups

/-- Only the owner and admins pass; the owner is read before the identity. -/
theorem checkOwner_eq (caller : Orders.Caller) (row : Row) :
    checkOwner caller row =
      if caller.admin then .ok ()
      else match row.customerId, caller.customerId with
        | .error e, _ => .error e
        | .ok _, none => .error .valueError
        | .ok owner, some customerId =>
            if owner = customerId then .ok () else .error (refusal .notFound) := by
  unfold checkOwner intUserId
  by_cases hadmin : caller.admin
  · simp [hadmin, pure, Except.pure]
  · cases row.customerId with
    | error e => simp [hadmin, Bind.bind, Except.bind]
    | ok owner =>
      cases caller.customerId with
      | none => simp [hadmin, Bind.bind, Except.bind]
      | some customerId =>
        by_cases howner : owner = customerId
        · simp [hadmin, howner, Bind.bind, Except.bind, pure, Except.pure]
        · simp [hadmin, howner, Bind.bind, Except.bind, throw, throwThe, MonadExceptOf.throw]

end OrderMesh.Platform
