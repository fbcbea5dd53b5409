import OrderMesh.Gateway.Access
import OrderMesh.Gateway.Proxy
import OrderMesh.Library.IntText
import OrderMesh.Platform.Requests

namespace OrderMesh.Gateway

/-- The methods that some route accepts. -/
inductive Method
  | get
  | post
  | patch
  deriving DecidableEq

/-- The base URLs of the settings. -/
inductive Upstream
  | order
  | inventory
  | shipping
  deriving DecidableEq

structure ClientRequest where
  method : Method
  path : List String
  lines : List (String × String)
  body : String

/-- A request of the gateway to a service. -/
structure InternalRequest where
  upstream : Upstream
  method : Method
  path : List String
  lines : List (String × String)
  body : String

/-- Why a request has no answer of its route's function: 404 or 405, 422, or what the code raises.
-/
inductive Refused
  | unrouted
  | unprocessable
  | raised (e : Raised)

/-- A value that the validation of the request did not accept answers 422. -/
def required {α : Type} : Option α → Except Refused α
  | some a => .ok a
  | none => .error .unprocessable

/-- The dependency of a route. -/
inductive Access
  | currentUser
  | requireAdmin
  deriving DecidableEq

def Access.check (edge : Edge) : Access → List (String × String) → Int → Except Raised TokenData
  | .currentUser => Gateway.currentUser edge
  | .requireAdmin => Gateway.requireAdmin edge

/-- The dependency and the target of a route; its path parameter may not be an `int`. -/
def route (fastapi : Fastapi) :
    Method → List String → Option (Access × Option (Upstream × List String))
  | .get, ["orders"] => some (.currentUser, some (.order, ["orders"]))
  | .post, ["orders"] => some (.currentUser, some (.order, ["orders"]))
  | .get, ["orders", id] =>
      some (.currentUser, (fastapi.pathInt id).map fun n => (.order, ["orders", toString n]))
  | .post, ["orders", id, "cancel"] =>
      some (.currentUser,
        (fastapi.pathInt id).map fun n => (.order, ["orders", toString n, "cancel"]))
  | .get, ["inventory", "products"] =>
      some (.currentUser, some (.inventory, ["inventory", "products"]))
  | .post, ["inventory", "products"] =>
      some (.requireAdmin, some (.inventory, ["inventory", "products"]))
  | .get, ["shipments", id] =>
      some (.currentUser, (fastapi.pathInt id).map fun n => (.shipping, ["shipments", toString n]))
  | _, _ => none

/-- What the gateway sends on, and for whom; a header that is not ASCII raises a
`UnicodeEncodeError`, which is a `ValueError`. -/
def proxied (edge : Edge) (r : ClientRequest) (fresh : Uuid) (now : Int) :
    Except Refused (TokenData × InternalRequest) :=
  match route edge.fastapi r.method r.path with
  | none => .error .unrouted
  | some (access, target) =>
      match access.check edge r.lines now with
      | .error e => .error (.raised e)
      | .ok user => do
          let (upstream, path) ← required target
          let lines := forward r.lines user fresh
          if asciiLines lines then return (user, ⟨upstream, r.method, path, lines, r.body⟩)
          else throw (.raised .valueError)

/-- What pydantic makes of a body under each schema. -/
structure Schemas where
  orderCreate : String → Option Orders.OrderCreate
  productCreate : String → Option Inventory.ProductCreate
  shipmentStatusUpdate : String → Option Shipping.ShipmentStatus

/-- `_is_admin` and `int(identity.user_id)`. -/
def callerOf (identity : Identity) : Orders.Caller :=
  ⟨identity.role = "ADMIN", IntText.int identity.userId⟩

def identified (r : InternalRequest) : Except Refused Identity := required (getIdentity r.lines)

def requireRole (roles : List String) (r : InternalRequest) : Except Refused Identity := do
  let identity ← identified r
  if identity.role ∉ roles then
    throw (.raised (.httpException 403 "Insufficient permissions"))
  return identity

/-- The routers of the three services; `drawn` is the id a new product gets. -/
def receive (fastapi : Fastapi) (schemas : Schemas) (r : InternalRequest) (drawn : Int) :
    Except Refused Platform.Operation :=
  match r.upstream, r.method, r.path with
  | .order, .post, ["orders"] => do
      let identity ← identified r
      return .createOrder (callerOf identity) (← required (schemas.orderCreate r.body))
  | .order, .get, ["orders"] => do
      return .listOrders (callerOf (← identified r))
  | .order, .get, ["orders", id] => do
      let identity ← identified r
      return .getOrder (callerOf identity) (← required (fastapi.pathInt id))
  | .order, .post, ["orders", id, "cancel"] => do
      let identity ← identified r
      return .cancelOrder (callerOf identity) (← required (fastapi.pathInt id))
  | .inventory, .post, ["inventory", "products"] => do
      let _ ← requireRole ["ADMIN"] r
      return .createProduct drawn (← required (schemas.productCreate r.body))
  | .inventory, .get, ["inventory", "products"] => do
      let _ ← identified r
      return .listProducts
  | .inventory, .get, ["inventory", "products", id] => do
      let _ ← identified r
      return .getProduct (← required (fastapi.pathInt id))
  | .shipping, .get, ["shipments", id] => do
      let _ ← identified r
      return .getShipment (← required (fastapi.pathInt id))
  | .shipping, .patch, ["shipments", id, "status"] => do
      let _ ← requireRole ["ADMIN"] r
      let status ← required (schemas.shipmentStatusUpdate r.body)
      return .updateShipmentStatus (← required (fastapi.pathInt id)) status
  | _, _, _ => .error .unrouted

/-- What a request of a client can come to behind the gateway. -/
inductive Reached (fastapi : Fastapi) (schemas : Schemas) (identity : Identity)
    (r : ClientRequest) :
    Platform.Operation → Prop
  | createOrder {payload} (hroute : r.method = .post ∧ r.path = ["orders"])
      (hbody : schemas.orderCreate r.body = some payload) :
      Reached fastapi schemas identity r (.createOrder (callerOf identity) payload)
  | listOrders (hroute : r.method = .get ∧ r.path = ["orders"]) :
      Reached fastapi schemas identity r (.listOrders (callerOf identity))
  | getOrder {id n} (hroute : r.method = .get ∧ r.path = ["orders", id])
      (hid : fastapi.pathInt id = some n) :
      Reached fastapi schemas identity r (.getOrder (callerOf identity) n)
  | cancelOrder {id n} (hroute : r.method = .post ∧ r.path = ["orders", id, "cancel"])
      (hid : fastapi.pathInt id = some n) :
      Reached fastapi schemas identity r (.cancelOrder (callerOf identity) n)
  | listProducts (hroute : r.method = .get ∧ r.path = ["inventory", "products"]) :
      Reached fastapi schemas identity r .listProducts
  | createProduct {drawn payload} (hroute : r.method = .post ∧ r.path = ["inventory", "products"])
      (hrole : identity.role = "ADMIN") (hbody : schemas.productCreate r.body = some payload) :
      Reached fastapi schemas identity r (.createProduct drawn payload)
  | getShipment {id n} (hroute : r.method = .get ∧ r.path = ["shipments", id])
      (hid : fastapi.pathInt id = some n) :
      Reached fastapi schemas identity r (.getShipment n)

theorem required_eq_ok {α : Type} {o : Option α} {a : α} (h : required o = .ok a) : o = some a := by
  cases o with
  | none => cases h
  | some b => exact congrArg some (Except.ok.inj h)

theorem requireRole_eq_ok {roles : List String} {r : InternalRequest} {identity : Identity}
    (h : requireRole roles r = .ok identity) :
    getIdentity r.lines = some identity ∧ identity.role ∈ roles := by
  obtain ⟨found, hfound, hrole⟩ := bind_eq_ok h
  have hid := required_eq_ok hfound
  by_cases hin : found.role ∈ roles
  · rw [if_neg (not_not_intro hin)] at hrole
    cases hrole
    exact ⟨hid, hin⟩
  · rw [if_pos hin] at hrole
    cases hrole

theorem Access.check_eq_ok {edge : Edge} {access : Access} {lines : List (String × String)}
    {now : Int} {user : TokenData} (h : access.check edge lines now = .ok user) :
    (∃ token, edge.fastapi.bearer lines = .ok token ∧
      decodeToken edge.jwt token edge.jwtSecret now = .ok user) ∧
      (access = .requireAdmin → user.role = "ADMIN") := by
  cases access with
  | currentUser => exact ⟨bind_eq_ok h, fun heq => by cases heq⟩
  | requireAdmin =>
    obtain ⟨huser, hadmin⟩ := requireAdmin_eq_ok h
    exact ⟨bind_eq_ok huser, fun _ => hadmin⟩

variable {edge : Edge} {schemas : Schemas} {r : ClientRequest} {fresh : Uuid} {now drawn : Int}
  {user : TokenData} {q : InternalRequest} {op : Platform.Operation}

/-- What the gateway sends on carries the user its route's dependency has found. -/
theorem proxied_eq_ok (h : proxied edge r fresh now = .ok (user, q)) :
    ∃ access target, route edge.fastapi r.method r.path = some (access, some target) ∧
      access.check edge r.lines now = .ok user ∧
      q = ⟨target.1, r.method, target.2, forward r.lines user fresh, r.body⟩ := by
  unfold proxied at h
  split at h
  · cases h
  · rename_i access target hroute
    split at h
    · cases h
    · rename_i user' hcheck
      obtain ⟨⟨upstream, path⟩, htarget, heq⟩ := bind_eq_ok h
      dsimp only at heq
      split_ifs at heq
      cases heq
      rw [required_eq_ok htarget] at hroute
      exact ⟨access, (upstream, path), hroute, hcheck, rfl⟩

theorem int_target {fastapi : Fastapi} {access access' : Access} {id : String}
    {target : Upstream × List String} {f : Int → Upstream × List String}
    (h : some (access, (fastapi.pathInt id).map f) = some (access', some target)) :
    ∃ n, fastapi.pathInt id = some n ∧ access' = access ∧ target = f n := by
  have hpair := Prod.mk.inj (Option.some.inj h)
  obtain ⟨n, hn, heq⟩ := Option.map_eq_some_iff.mp hpair.2
  exact ⟨n, hn, hpair.1.symm, heq.symm⟩

/-- A service does for the gateway what the client asked the gateway for, and nothing else. -/
theorem receive_proxied (h : proxied edge r fresh now = .ok (user, q))
    (hreceive : receive edge.fastapi schemas q drawn = .ok op) :
    ∃ identity, getIdentity q.lines = some identity ∧
      Reached edge.fastapi schemas identity r op := by
  obtain ⟨access, target, hroute, -, rfl⟩ := proxied_eq_ok h
  obtain ⟨m, path, lines, body⟩ := r
  dsimp only at hroute hreceive ⊢
  unfold route at hroute
  split at hroute
  · cases hroute
    obtain ⟨identity, hid, heq⟩ := bind_eq_ok hreceive
    cases heq
    exact ⟨identity, required_eq_ok hid, .listOrders ⟨rfl, rfl⟩⟩
  · cases hroute
    obtain ⟨identity, hid, hbody⟩ := bind_eq_ok hreceive
    obtain ⟨payload, hpayload, heq⟩ := bind_eq_ok hbody
    cases heq
    exact ⟨identity, required_eq_ok hid, .createOrder ⟨rfl, rfl⟩ (required_eq_ok hpayload)⟩
  · rename_i id
    obtain ⟨n, hn, rfl, rfl⟩ := int_target hroute
    obtain ⟨identity, hid, hparam⟩ := bind_eq_ok hreceive
    rw [edge.fastapi.pathInt_toString hn] at hparam
    cases hparam
    exact ⟨identity, required_eq_ok hid, .getOrder ⟨rfl, rfl⟩ hn⟩
  · rename_i id
    obtain ⟨n, hn, rfl, rfl⟩ := int_target hroute
    obtain ⟨identity, hid, hparam⟩ := bind_eq_ok hreceive
    rw [edge.fastapi.pathInt_toString hn] at hparam
    cases hparam
    exact ⟨identity, required_eq_ok hid, .cancelOrder ⟨rfl, rfl⟩ hn⟩
  · cases hroute
    obtain ⟨identity, hid, heq⟩ := bind_eq_ok hreceive
    cases heq
    exact ⟨identity, required_eq_ok hid, .listProducts ⟨rfl, rfl⟩⟩
  · cases hroute
    obtain ⟨identity, hrole, hbody⟩ := bind_eq_ok hreceive
    obtain ⟨payload, hpayload, heq⟩ := bind_eq_ok hbody
    cases heq
    obtain ⟨hid, hadmin⟩ := requireRole_eq_ok hrole
    have hproduct := required_eq_ok hpayload
    exact ⟨identity, hid, .createProduct ⟨rfl, rfl⟩ (List.mem_singleton.mp hadmin) hproduct⟩
  · rename_i id
    obtain ⟨n, hn, rfl, rfl⟩ := int_target hroute
    obtain ⟨identity, hid, hparam⟩ := bind_eq_ok hreceive
    rw [edge.fastapi.pathInt_toString hn] at hparam
    cases hparam
    exact ⟨identity, required_eq_ok hid, .getShipment ⟨rfl, rfl⟩ hn⟩
  · cases hroute

end OrderMesh.Gateway
