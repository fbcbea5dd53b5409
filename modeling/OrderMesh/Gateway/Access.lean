import OrderMesh.Library.Json
import OrderMesh.Platform.Creation
import OrderMesh.Shared.Headers

namespace OrderMesh.Gateway

def second : Int := 1000000

/-- The payload of a token; the library writes the expiry as whole seconds. -/
def tokenPayload (sub email role : String) (exp : Int) : Json Empty :=
  .obj [("sub", .str sub), ("email", .str email), ("role", .str role), ("exp", .int exp)]

/-- The `jwt` package; `decode` is `none` where it raises a `PyJWTError`. -/
structure PyJwt where
  encode : Json Empty → String → String
  decode : String → String → Int → Option (Json Empty)
  decode_encode : ∀ sub email role exp secret now,
    decode (encode (tokenPayload sub email role exp) secret) secret now =
      if now < exp * second then some (tokenPayload sub email role exp) else none

/-- `checkpw` hashes with the salt that the hash carries and compares. -/
structure Passwords extends Bcrypt where
  checkpw : List UInt8 → String → Bool
  checkpw_hashpw : ∀ password password' salt,
    checkpw password (hashpw password' salt) = decide (hashpw password salt = hashpw password' salt)

/-- What the routes take from FastAPI. -/
structure Fastapi where
  /-- `HTTPBearer`: the credentials of the request. -/
  bearer : List (String × String) → Except Raised String
  /-- A path parameter declared `int`; `none` answers 422. -/
  pathInt : String → Option Int
  pathInt_toString : ∀ {text n}, pathInt text = some n → pathInt (toString n) = some n

/-- The gateway's settings and its libraries. -/
structure Edge where
  jwt : PyJwt
  bcrypt : Passwords
  fastapi : Fastapi
  jwtSecret : String
  jwtExpiryMinutes : Int

/-- The second in which a token handed out at this time expires. -/
def expiry (now expiresMinutes : Int) : Int := (now + expiresMinutes * (60 * second)) / second

def createAccessToken (jwt : PyJwt) (userId : Int) (email role secret : String)
    (expiresMinutes now : Int) : String :=
  jwt.encode (tokenPayload (toString userId) email role (expiry now expiresMinutes)) secret

/-- `payload[name]`. -/
def item (payload : Json Empty) (name : String) : Except Raised (Json Empty) :=
  match payload.get? name with
  | some value => .ok value
  | none => .error .keyError

/-- A `str` field of a pydantic model. -/
def textField : Json Empty → Except Raised String
  | .str s => .ok s
  | _ => .error .valueError

def decodeToken (jwt : PyJwt) (token secret : String) (now : Int) : Except Raised TokenData :=
  match jwt.decode token secret now with
  | none => .error (.httpException 401 "Invalid or expired token")
  | some payload => do
      let sub ← item payload "sub"
      let email ← item payload "email"
      let role ← item payload "role"
      return ⟨← textField sub, ← textField email, ← textField role⟩

def verifyPassword (bcrypt : Passwords) (password hashed : String) : Bool :=
  bcrypt.checkpw (encode password) hashed

def currentUser (edge : Edge) (lines : List (String × String)) (now : Int) :
    Except Raised TokenData := do
  decodeToken edge.jwt (← edge.fastapi.bearer lines) edge.jwtSecret now

def requireAdmin (edge : Edge) (lines : List (String × String)) (now : Int) :
    Except Raised TokenData := do
  let user ← currentUser edge lines now
  if user.role ≠ "ADMIN" then throw (.httpException 403 "Admin access required")
  return user

structure LoginRequest where
  email : String
  password : String

/-- `login`, for the row its select has found. -/
def login (edge : Edge) (payload : LoginRequest) (row : Option (Int × User)) (now : Int) :
    Except Raised String :=
  match row with
  | none => .error (.httpException 401 "Invalid credentials")
  | some (id, user) =>
      if verifyPassword edge.bcrypt payload.password user.hashedPassword then
        .ok (createAccessToken edge.jwt id user.email user.role edge.jwtSecret
          edge.jwtExpiryMinutes now)
      else .error (.httpException 401 "Invalid credentials")

/-- Until it expires a token gives back what it was made of. -/
theorem decodeToken_create (jwt : PyJwt) (userId : Int) (email role secret : String)
    (expiresMinutes made now : Int) :
    decodeToken jwt (createAccessToken jwt userId email role secret expiresMinutes made) secret
        now =
      if now < expiry made expiresMinutes * second then .ok ⟨toString userId, email, role⟩
      else .error (.httpException 401 "Invalid or expired token") := by
  unfold decodeToken createAccessToken
  rw [jwt.decode_encode]
  split_ifs
  · rfl
  · rfl

/-- A token lives for the minutes it was made for, less what its expiry is rounded down. -/
theorem expiry_bounds (now expiresMinutes : Int) :
    expiry now expiresMinutes * second ≤ now + expiresMinutes * (60 * second) ∧
      now + expiresMinutes * (60 * second) < (expiry now expiresMinutes + 1) * second := by
  have hpos : (0 : Int) < second := by decide
  constructor
  · exact Int.ediv_mul_le _ hpos.ne'
  · exact Int.lt_ediv_add_one_mul_self _ hpos

/-- A password passes against the hash of another one if bcrypt cannot tell their first 72
bytes apart under its salt. -/
theorem verifyPassword_hash (bcrypt : Passwords) (password password' : String)
    (salt : bcrypt.Salt) :
    verifyPassword bcrypt password (hashPassword bcrypt.toBcrypt password' salt) =
      decide (hashPassword bcrypt.toBcrypt password salt =
        hashPassword bcrypt.toBcrypt password' salt) :=
  bcrypt.checkpw_hashpw _ _ salt

theorem decode_ne_none {jwt : PyJwt} {token secret : String} {now : Int} {user : TokenData}
    (h : decodeToken jwt token secret now = .ok user) : jwt.decode token secret now ≠ none := by
  intro hnone
  rw [decodeToken, hnone] at h
  cases h

theorem bind_eq_ok {ε α β : Type} {x : Except ε α} {f : α → Except ε β} {b : β}
    (h : x >>= f = .ok b) : ∃ a, x = .ok a ∧ f a = .ok b := by
  cases x with
  | error e => cases h
  | ok a => exact ⟨a, rfl, h⟩

theorem requireAdmin_eq_ok {edge : Edge} {lines : List (String × String)} {now : Int}
    {user : TokenData} (h : requireAdmin edge lines now = .ok user) :
    currentUser edge lines now = .ok user ∧ user.role = "ADMIN" := by
  obtain ⟨found, hfound, hrole⟩ := bind_eq_ok h
  by_cases hadmin : found.role = "ADMIN"
  · rw [if_neg (not_not_intro hadmin)] at hrole
    cases hrole
    exact ⟨hfound, hadmin⟩
  · rw [if_pos hadmin] at hrole
    cases hrole

end OrderMesh.Gateway
