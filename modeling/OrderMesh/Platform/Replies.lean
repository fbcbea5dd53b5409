import OrderMesh.Order.Schemas
import OrderMesh.Platform.Requests

namespace OrderMesh.Platform

open Orders

/-- The exceptions of the route, those of `Raised` among them. -/
inductive RouteError
  | raised (error : Raised)
  | typeError
  | validationError
  deriving DecidableEq

abbrev Route := EStateM RouteError (Redis String)

def Route.ofRequest {α : Type} (x : Request String α) : Route α := fun r =>
  match x r with
  | .ok a r' => .ok a r'
  | .error e r' => .error (.raised e) r'

def raisedOr {α : Type} : Except Raised α → Except RouteError α
  | .ok a => .ok a
  | .error e => .error (.raised e)

/-- `null` reads as None, which is also what a miss returns. -/
def getText (name : String) : Request String (Option Value) :=
  tryCatch (do
    match ← Redis.get name with
    | none => return none
    | some raw =>
        match Json.loads raw with
        | none => throw .valueError
        | some .null => return none
        | some value => return some value)
    fun _ => pure none

def setText (name : String) (value : Value) : Request String Unit :=
  tryCatch (Redis.set name (Json.dumps FixedPoint.text value)) fun _ => pure ()

/-- What `get_json` makes of a text. -/
def cachedValue (raw : String) : Option Value :=
  match Json.loads raw with
  | none | some .null => none
  | some value => some value

theorem run_getText (name : String) (r : Redis String) :
    getText name r = .ok ((r.found name).bind cachedValue) r.next := by
  simp only [getText, tryCatch, tryCatchThe, MonadExceptOf.tryCatch, EStateM.tryCatch, Redis.get,
    Redis.found, Bind.bind, EStateM.bind]
  cases r.raises with
  | some error => rfl
  | none =>
    simp only [if_pos]
    cases r.next.entries.get? name with
    | none => rfl
    | some raw =>
      simp only [Option.bind_some, cachedValue]
      cases (Json.loads raw : Option Value) with
      | none => rfl
      | some value => cases value <;> rfl

theorem run_setText (name : String) (value : Value) (r : Redis String) :
    setText name value r = .ok () (r.stored name (Json.dumps FixedPoint.text value)) :=
  Cache.run_setJson r name (Json.dumps FixedPoint.text value)

/-- `value[name]`. -/
def subscript (value : Value) (name : String) : Except RouteError Value :=
  match value with
  | .obj _ =>
      match value.get? name with
      | some v => .ok v
      | none => .error (.raised .keyError)
  | _ => .error .typeError

/-- `value == n`; a truth value counts as a number. -/
def equalsInt (value : Value) (n : Int) : Bool :=
  match value with
  | .int m => m = n
  | .bool b => (if b then 1 else 0) = n
  | _ => false

def checkCached (caller : Caller) (cached : Value) : Except RouteError Unit := do
  if !caller.admin then
    let customerId ← subscript cached "customer_id"
    if !equalsInt customerId (← raisedOr (intUserId caller)) then
      throw (.raised (refusal .notFound))

def checkLoaded (caller : Caller) (order : OrderRow) : Except RouteError Unit := do
  if !caller.admin then
    if order.customerId ≠ (← raisedOr (intUserId caller)) then
      throw (.raised (refusal .notFound))

def validated {α : Type} : Option α → Except RouteError α
  | some a => .ok a
  | none => .error .validationError

section

variable (p : Validation) (orders : Int → Option OrderRow)

/-- `get_order`; what it returns is validated as `OrderOut`. -/
def getOrderText (caller : Caller) (id : Int) : Route OrderOut := do
  match ← Route.ofRequest (getText (cacheKey (.order id))) with
  | some cached =>
      liftExcept (checkCached caller cached)
      liftExcept (validated (p.orderOut cached))
  | none =>
      match orders id with
      | none => throw (.raised (refusal .notFound))
      | some order =>
          liftExcept (checkLoaded caller order)
          let result ← liftExcept (validated (p.orderOut order.attributes))
          Route.ofRequest (setText (cacheKey (.order id)) result.modelDump)
          return result

end

def replyOf {α : Type} (x : Route α) (r : Redis String) : Except RouteError α :=
  match x r with
  | .ok a _ => .ok a
  | .error e _ => .error e

/-- The text that `set_json` stores for a row. -/
def rowText (order : OrderRow) : String := Json.dumps FixedPoint.text order.out.modelDump

/-- A row of the model with its id and its status as a text. -/
def orderRow (id : Int) (order : Order) : OrderRow :=
  ⟨id, order.customerId, order.totalAmount, statusText order.status, order.items⟩

theorem cachedValue_rowText (order : OrderRow) :
    cachedValue (rowText order) = some (readBack order.out.modelDump) := by
  have hloads : (Json.loads (rowText order) : Option Value) =
      some (readBack order.out.modelDump) := Json.loads_dumps _ _
  rw [cachedValue, hloads]
  rfl

/-- The check of a row that was loaded is the one of the owner. -/
theorem checkLoaded_eq (caller : Caller) (id : Int) (order : Order) :
    checkLoaded caller (orderRow id order) = raisedOr (checkOwner caller (.order id order)) := by
  unfold checkLoaded checkOwner intUserId
  by_cases hadmin : caller.admin
  · simp [hadmin, raisedOr, pure, Except.pure]
  · cases caller.customerId with
    | none => simp [hadmin, raisedOr, Row.customerId, Bind.bind, Except.bind]
    | some customerId =>
      by_cases howner : order.customerId = customerId
      · simp [hadmin, howner, raisedOr, orderRow, Row.customerId, Bind.bind, Except.bind, pure,
          Except.pure]
      · simp [hadmin, howner, raisedOr, orderRow, Row.customerId, Bind.bind, Except.bind, throw,
          throwThe, MonadExceptOf.throw]

/-- The two checks take one decision. -/
theorem checkCached_eq (caller : Caller) (order : OrderRow) :
    checkCached caller (readBack order.out.modelDump) = checkLoaded caller order := by
  have hsubscript : subscript (readBack order.out.modelDump) "customer_id" =
      .ok (.int order.customerId) := rfl
  unfold checkCached checkLoaded
  rw [hsubscript]
  by_cases hadmin : caller.admin
  · simp [hadmin]
  · cases raisedOr (intUserId caller) with
    | error e => simp [hadmin, Bind.bind, Except.bind]
    | ok customerId => simp [hadmin, Bind.bind, Except.bind, equalsInt]

section

variable (p : Validation) (orders : Int → Option OrderRow) (caller : Caller) {id : Int}
  {row : OrderRow} {r : Redis String}

theorem replyOf_cached (h : r.found (cacheKey (.order id)) = some (rowText row)) :
    replyOf (getOrderText p orders caller id) r =
      (checkLoaded caller row).map fun _ => row.out := by
  simp only [replyOf, getOrderText, Route.ofRequest, Bind.bind, EStateM.bind, run_getText, h,
    Option.bind_some, cachedValue_rowText, checkCached_eq, p.orderOut_readBack]
  cases checkLoaded caller row <;> rfl

theorem replyOf_loaded (h : r.found (cacheKey (.order id)) = none) (hrow : orders id = some row) :
    replyOf (getOrderText p orders caller id) r =
      (checkLoaded caller row).map fun _ => row.out := by
  simp only [replyOf, getOrderText, Route.ofRequest, Bind.bind, EStateM.bind, run_getText, h,
    Option.bind_none, hrow, attributes_eq, p.orderOut_modelDump]
  cases checkLoaded caller row with
  | error e => rfl
  | ok a =>
    simp only [liftExcept, validated, pure, EStateM.pure, run_setText, Except.map]

theorem replyOf_missing (h : r.found (cacheKey (.order id)) = none) (hrow : orders id = none) :
    replyOf (getOrderText p orders caller id) r = .error (.raised (refusal .notFound)) := by
  simp only [replyOf, getOrderText, Route.ofRequest, Bind.bind, EStateM.bind, run_getText, h,
    Option.bind_none, hrow]
  rfl

theorem stored_rowText {stored : Redis String} (hset : r.raises = none)
    (hstored : setText (cacheKey (.order id)) row.out.modelDump r = .ok () stored) :
    stored.entries.get? (cacheKey (.order id)) = some (rowText row) := by
  rw [run_setText] at hstored
  cases hstored
  rw [Redis.stored, if_pos hset, Dict.get?_set, if_pos rfl]
  rfl

/-- While the text that `set_json` stored for a row lasts, it reads as the reply for the
row, the check of the dictionary decides as that of the row does, and every caller gets
the reply that the database would give: the row, or the refusal of the check. -/
theorem cached_reply_agrees {stored hit miss : Redis String} (hrow : orders id = some row)
    (hset : r.raises = none)
    (hstored : setText (cacheKey (.order id)) row.out.modelDump r = .ok () stored)
    (hhit : hit.found (cacheKey (.order id)) = stored.entries.get? (cacheKey (.order id)))
    (hmiss : miss.found (cacheKey (.order id)) = none) :
    ∃ raw cached, hit.found (cacheKey (.order id)) = some raw ∧ cachedValue raw = some cached ∧
      p.orderOut cached = some row.out ∧
      checkCached caller cached = checkLoaded caller row ∧
      replyOf (getOrderText p orders caller id) hit =
        replyOf (getOrderText p orders caller id) miss ∧
      replyOf (getOrderText p orders caller id) miss =
        (checkLoaded caller row).map fun _ => row.out := by
  have htext := hhit.trans (stored_rowText hset hstored)
  refine ⟨rowText row, readBack row.out.modelDump, htext, cachedValue_rowText row,
    p.orderOut_readBack row.out, checkCached_eq caller row, ?_,
    replyOf_loaded p orders caller hmiss hrow⟩
  rw [replyOf_cached p orders caller htext, replyOf_loaded p orders caller hmiss hrow]

end

def emptyRedis : Redis String := ⟨.empty, [], []⟩

/-- An order of two items, one of them free. -/
def twoItems : OrderRow := ⟨7, 1, 2000, "CONFIRMED", [⟨1, 2, 1000⟩, ⟨2, 1, 0⟩]⟩

def twoItemsCached : Redis String := emptyRedis.stored (cacheKey (.order 7)) (rowText twoItems)

/-- The reply to a request for the order of two items. -/
def twoItemsReply (caller : Caller) (r : Redis String) : Except RouteError OrderOut :=
  replyOf (getOrderText .plain (fun _ => some twoItems) caller 7) r

/-- The owner and the admin get the row, another customer a 404, from Redis and without it. -/
theorem cached_reply_agrees_twoItems :
    (∀ caller, checkLoaded caller twoItems = .ok () →
      twoItemsReply caller twoItemsCached = .ok twoItems.out ∧
      twoItemsReply caller emptyRedis = .ok twoItems.out) ∧
    checkLoaded ⟨false, some 1⟩ twoItems = .ok () ∧ checkLoaded ⟨true, some 9⟩ twoItems = .ok () ∧
    twoItemsReply ⟨false, some 2⟩ twoItemsCached = .error (.raised (refusal .notFound)) ∧
    twoItemsReply ⟨false, some 2⟩ emptyRedis = .error (.raised (refusal .notFound)) := by
  have hreply : ∀ caller, twoItemsReply caller twoItemsCached = twoItemsReply caller emptyRedis ∧
      twoItemsReply caller emptyRedis =
        (checkLoaded caller twoItems).map fun _ => twoItems.out := by
    intro caller
    obtain ⟨_, _, -, -, -, -, hsame, hmiss⟩ :=
      @cached_reply_agrees .plain (fun _ => some twoItems) caller 7 twoItems emptyRedis _
        twoItemsCached emptyRedis rfl rfl (run_setText _ _ emptyRedis) rfl rfl
    exact ⟨hsame, hmiss⟩
  refine ⟨?_, rfl, rfl, ?_, (hreply ⟨false, some 2⟩).2⟩
  · intro caller hcheck
    obtain ⟨hsame, hmiss⟩ := hreply caller
    rw [hcheck] at hmiss
    exact ⟨hsame.trans hmiss, hmiss⟩
  · exact (hreply ⟨false, some 2⟩).1.trans (hreply ⟨false, some 2⟩).2

/-- The reply for a row of the model. -/
def Row.out : Row → Option OrderOut
  | .order id o => some (orderRow id o).out
  | .product _ _ | .shipment _ _ => none

def orderRows (databases : Databases) (id : Int) : Option OrderRow :=
  (databases.orders.get? id).map (orderRow id)

/-- `get_order` over texts replies what `get_order` over rows does, where each text is
that of the row in its place. -/
theorem getOrderText_refines (p : Validation) (caller : Caller) {id : Int} {s : Site (Redis Row)}
    {r : Redis String}
    (hkind : ∀ row ∈ s.cache.found (cacheKey (.order id)), ∃ order, row = .order id order)
    (htexts : r.found (cacheKey (.order id)) =
      (s.cache.found (cacheKey (.order id))).bind fun row => row.out.map fun out =>
        Json.dumps FixedPoint.text out.modelDump) :
    replyOf (getOrderText p (orderRows s.databases) caller id) r =
      (raisedOr (outcome (getOrder redisCache caller id) s).1).bind fun row =>
        validated row.out := by
  unfold getOrder
  cases hfound : s.cache.found (cacheKey (.order id)) with
  | some row =>
    obtain ⟨order, rfl⟩ := hkind row hfound
    have htext : r.found (cacheKey (.order id)) = some (rowText (orderRow id order)) := by
      rw [htexts, hfound]
      rfl
    rw [lookUp_found _ _ _ hfound, replyOf_cached p _ caller htext, checkLoaded_eq]
    cases checkOwner caller (.order id order) <;> rfl
  | none =>
    have hnone : r.found (cacheKey (.order id)) = none := by
      rw [htexts, hfound]
      rfl
    rw [lookUp_missed _ _ _ hfound]
    simp only [fromDatabase, Databases.row]
    cases hget : s.databases.orders.get? id with
    | none =>
      have hrow : orderRows s.databases id = none := by
        rw [orderRows, hget]
        rfl
      rw [replyOf_missing p _ caller hnone hrow]
      rfl
    | some order =>
      have hrow : orderRows s.databases id = some (orderRow id order) := by
        rw [orderRows, hget]
        rfl
      rw [replyOf_loaded p _ caller hnone hrow, checkLoaded_eq]
      simp only [Option.map_some]
      cases checkOwner caller (.order id order) <;> rfl

end OrderMesh.Platform
