import OrderMesh.Inventory.Calls
import OrderMesh.Library.UniqueKey
import OrderMesh.Order.Service
import OrderMesh.Shared.Cache

namespace OrderMesh

open Transition
open UniqueKey (Table Endpoint Db Act Law)

/-- A `String(n)` column. -/
def varchar (n : Nat) (text : String) : Bool := text.length ≤ n ∧ '\x00' ∉ text.toList

def Raised.IsConflict (r : Raised) : Prop := ∃ detail, r = .httpException 409 detail

namespace Gateway

/-- A row of `users`; its id is the key it is stored under. -/
structure User where
  email : String
  hashedPassword : String
  role : String
  deriving DecidableEq

inductive Role
  | customer
  | admin

def Role.value : Role → String
  | .customer => "CUSTOMER"
  | .admin => "ADMIN"

/-- A payload the `RegisterRequest` schema accepts; the email is an `EmailStr`. -/
structure RegisterRequest where
  email : String
  password : String
  role : Role := .customer
  email_length : email.length ≤ 254
  email_text : '\x00' ∉ email.toList
  password_length : 6 ≤ password.length ∧ password.length ≤ 128

/-- The `bcrypt` package, with the salts its `gensalt` hands out. -/
structure Bcrypt where
  Salt : Type
  hashpw : List UInt8 → Salt → String
  hash_length : ∀ password salt, (hashpw password salt).length = 60
  hash_text : ∀ password salt, '\x00' ∉ (hashpw password salt).toList

def maxBytes : Nat := 72

def encode (password : String) : List UInt8 := password.toUTF8.toList.take maxBytes

def hashPassword (bcrypt : Bcrypt) (password : String) (salt : bcrypt.Salt) : String :=
  bcrypt.hashpw (encode password) salt

def newUser (bcrypt : Bcrypt) (payload : RegisterRequest) (salt : bcrypt.Salt) : User :=
  ⟨payload.email, hashPassword bcrypt payload.password salt, payload.role.value⟩

/-- The lookup refuses an email it finds; the commit is not guarded. -/
def register : Endpoint User String Raised where
  key := User.email
  storable u := varchar 255 u.email && varchar 255 u.hashedPassword && varchar 20 u.role
  found := some (.httpException 409 "Email already registered")
  violated := none

abbrev Users := Table register.key

/-- The requests with the salts their passwords get. -/
abbrev Registrations (bcrypt : Bcrypt) := List (RegisterRequest × bcrypt.Salt)

def Registrations.users {bcrypt : Bcrypt} (requests : Registrations bcrypt) : List User :=
  requests.map fun r => newUser bcrypt r.1 r.2

theorem storable_newUser (bcrypt : Bcrypt) (payload : RegisterRequest) (salt : bcrypt.Salt) :
    register.storable (newUser bcrypt payload salt) = true := by
  have hemail : varchar 255 payload.email = true :=
    decide_eq_true ⟨Nat.le_succ_of_le payload.email_length, payload.email_text⟩
  have hhash : varchar 255 (hashPassword bcrypt payload.password salt) = true := by
    refine decide_eq_true ⟨?_, bcrypt.hash_text _ salt⟩
    rw [hashPassword, bcrypt.hash_length]
    decide
  have hrole : varchar 20 payload.role.value = true := by
    cases payload.role <;> decide
  simp [register, newUser, hemail, hhash, hrole]

theorem storable_users {bcrypt : Bcrypt} (requests : Registrations bcrypt) :
    ∀ row ∈ requests.users, register.storable row = true := by
  intro row hrow
  obtain ⟨r, -, rfl⟩ := List.mem_map.mp hrow
  exact storable_newUser bcrypt r.1 r.2

end Gateway

namespace Inventory

def newProduct (payload : ProductCreate) : Product :=
  ⟨payload.sku, payload.name, payload.quantityAvailable⟩

/-- The route's `create_product`, with the `IntegrityError` it catches. -/
def createProductRoute : Endpoint Product String Raised where
  key := Product.sku
  storable p :=
    varchar 64 p.sku && varchar 255 p.name && (Orders.integer p.quantityAvailable).isSome
  found := none
  violated := some (.httpException 409 "SKU already exists")

abbrev Products := Table createProductRoute.key

/-- The store with these products and no reservations. -/
def storeOf (t : Products) : Store :=
  ⟨⟨t.serial.rows, t.serial.nodup⟩, SerialTable.empty⟩

/-- The commit of the route is the creation of the product in the store. -/
theorem commit_createProduct (t : Products) {id : Int} (hfree : t.serial.Free id)
    (payload : ProductCreate) :
    ∃ reply t', createProductRoute.advance t (newProduct payload) (.inserted id) .commit =
        some (.replied reply, t') ∧
      createProduct (storeOf t) id payload =
        match reply with
        | .created _ => some (newProduct payload, storeOf t')
        | _ => none := by
  have hid : id ∉ (storeOf t).products.keys := hfree.2
  by_cases hkey : t.taken (createProductRoute.key (newProduct payload)) = true
  · refine ⟨_, t, UniqueKey.commit_taken id hkey, ?_⟩
    exact if_pos (.inr hkey)
  · refine ⟨_, _, UniqueKey.commit_free hkey hfree, ?_⟩
    have hnew : createProduct (storeOf t) id payload = some (newProduct payload,
        { storeOf t with products := (storeOf t).products.set id (newProduct payload) }) :=
      if_neg (not_or.mpr ⟨hid, hkey⟩)
    rw [hnew]
    refine congrArg some (Prod.ext rfl (Store.ext ?_ rfl))
    exact Dict.ext_entries (Dict.entries_set_of_notMem _ id _ hid)

end Inventory

namespace Platform

open Gateway (Bcrypt Registrations Users register)
open Inventory (ProductCreate Products createProductRoute newProduct)

section

variable {bcrypt : Bcrypt}

theorem conflict_register (x : Raised) (h : register.found = some x ∨ register.violated = some x) :
    x.IsConflict := by
  cases h with
  | inl hfound => exact ⟨_, (Option.some.inj hfound).symm⟩
  | inr hviolated => cases hviolated

theorem conflict_createProduct (x : Raised)
    (h : createProductRoute.found = some x ∨ createProductRoute.violated = some x) :
    x.IsConflict := by
  cases h with
  | inl hfound => cases hfound
  | inr hviolated => exact ⟨_, (Option.some.inj hviolated).symm⟩

/-- Once an email is looked up while another request is in flight with it, one of the requests
is going to end unhandled. -/
theorem unhandled_of_raced {users : Users} {requests : Registrations bcrypt} {as : List Act}
    {d : Db register.key Raised}
    (hrun : exec register.step (register.start users requests.users) as = some d)
    (hraced : ¬ Meets register.step register.Alone (register.start users requests.users) as) :
    ∃ bs d', exec register.step d bs = some d' ∧ d'.Finished ∧
      ∃ q ∈ d'.requests, q.phase = .replied .unhandled := by
  obtain ⟨bs, d', hrest, hfinished⟩ := UniqueKey.run_finishes hrun
  refine ⟨bs, d', hrest, hfinished, ?_⟩
  by_contra hnot
  have hhandled : ∀ q ∈ d'.requests, q.phase ≠ .replied .unhandled :=
    fun q hq hphase => hnot ⟨q, hq, hphase⟩
  have hwhole := exec_append_eq_some.mpr ⟨d, hrun, hrest⟩
  have hmeets := UniqueKey.alone_of_handled rfl hwhole hfinished hhandled
  exact hraced (meets_append.mp hmeets).1

/-- Creation keeps its promise (201 for one request with a new key, 409 for the others) for
accounts where no email is looked up while another request is in flight with it, and for
products where the columns accept the payloads. -/
theorem creation_iff (users : Users) (products : Products)
    (requests : Registrations bcrypt) (payloads : List ProductCreate) (as bs : List Act)
    {d : Db register.key Raised} {d' : Db createProductRoute.key Raised}
    (hregister : exec register.step (register.start users requests.users) as = some d)
    (hcreate : exec createProductRoute.step
      (createProductRoute.start products (payloads.map newProduct)) bs = some d') :
    ((Meets register.step register.Alone (register.start users requests.users) as →
        Law register.key Raised.IsConflict users d) ∧
      (d.Finished → Law register.key Raised.IsConflict users d →
        Meets register.step register.Alone (register.start users requests.users) as)) ∧
    (((∀ row ∈ payloads.map newProduct, createProductRoute.storable row = true) →
        Law createProductRoute.key Raised.IsConflict products d') ∧
      (d'.Finished → Law createProductRoute.key Raised.IsConflict products d' →
        ∀ row ∈ payloads.map newProduct, createProductRoute.storable row = true)) := by
  refine ⟨⟨fun halone => ?_, fun hfinished hlaw => ?_⟩,
    fun hstorable => ?_, fun hfinished hlaw => ?_⟩
  · have hhandled := UniqueKey.handled_of_alone (by simp [register])
      (Gateway.storable_users requests) halone hregister
    exact (UniqueKey.exec_inv hregister).law hhandled conflict_register
  · exact UniqueKey.alone_of_handled rfl hregister hfinished hlaw.handled
  · have hhandled := UniqueKey.handled_of_violated (by simp [createProductRoute]) hstorable hcreate
    exact (UniqueKey.exec_inv hcreate).law hhandled conflict_createProduct
  · exact UniqueKey.storable_of_handled rfl hcreate hfinished hlaw.handled

end

/-- Two hashes of one password. -/
def twoSalts : Bcrypt where
  Salt := Bool
  hashpw _ salt := bif salt then "$2b$12$abcdefghijklmnopqrstuuiw7cXzHo2/adp5.av4HmyMnjH1TiBtu"
    else "$2b$12$zyxwvutsrqponmlkjihgfewFk81YtWHdet56CmTQuz20FLCEdJ7.e"
  hash_length _ salt := by cases salt <;> decide
  hash_text _ salt := by cases salt <;> decide

def duplicate : Gateway.RegisterRequest where
  email := "dup@example.com"
  password := "secret123"
  email_length := by decide
  email_text := by decide
  password_length := by decide

/-- Both requests look the email up before either of them commits. -/
def lookupsFirst : List Act :=
  [⟨0, .lookup⟩, ⟨1, .lookup⟩, ⟨0, .insert⟩, ⟨1, .insert⟩, ⟨0, .commit⟩, ⟨1, .commit⟩]

/-- One request after the other. -/
def inTurn : List Act := [⟨0, .lookup⟩, ⟨0, .insert⟩, ⟨0, .commit⟩, ⟨1, .lookup⟩]

def duplicates : Registrations twoSalts := [(duplicate, true), (duplicate, false)]

theorem lateCommit_unhandled : ∃ d, exec register.step (register.start .empty duplicates.users)
      lookupsFirst = some d ∧ d.Finished ∧
    (∃ q ∈ d.requests, q.phase = .replied .unhandled) ∧
    ¬ Law register.key Raised.IsConflict .empty d := by
  have hrun : ∃ d,
      exec register.step (register.start .empty duplicates.users) lookupsFirst = some d ∧
      d.requests.map UniqueKey.Request.phase = [.replied (.created 1), .replied .unhandled] :=
    ⟨_, rfl, rfl⟩
  obtain ⟨d, hd, hphases⟩ := hrun
  have hunhandled : ∃ q ∈ d.requests, q.phase = .replied .unhandled := by
    refine List.mem_map.mp ?_
    rw [hphases]
    simp
  refine ⟨d, hd, fun q hq => ?_, hunhandled, fun hlaw => ?_⟩
  · have hphase := List.mem_map_of_mem (f := UniqueKey.Request.phase) hq
    rw [hphases, List.mem_pair] at hphase
    rcases hphase with h | h <;> rw [h] <;> rfl
  · obtain ⟨q, hq, hphase⟩ := hunhandled
    exact hlaw.handled q hq hphase

/-- Two products with one SKU, inserted before either of them is committed. -/
def insertsFirst : List Act := [⟨0, .insert⟩, ⟨1, .insert⟩, ⟨1, .commit⟩, ⟨0, .commit⟩]

theorem creation_iff_inTurn : ∃ d d',
    exec register.step (register.start .empty duplicates.users) inTurn = some d ∧
    exec createProductRoute.step (createProductRoute.start .empty
      ([Inventory.widget, Inventory.widget].map newProduct)) insertsFirst = some d' ∧
    Law register.key Raised.IsConflict .empty d ∧
    Law createProductRoute.key Raised.IsConflict .empty d' := by
  have halone :
      Meets register.step register.Alone (register.start .empty duplicates.users) inTurn := by
    decide
  have hlaws := creation_iff .empty .empty duplicates [Inventory.widget, Inventory.widget]
    inTurn insertsFirst rfl rfl
  exact ⟨_, _, rfl, rfl, hlaws.1.1 halone, hlaws.2.1 (by decide)⟩

end Platform

end OrderMesh
