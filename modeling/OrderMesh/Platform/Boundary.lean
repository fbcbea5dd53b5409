import OrderMesh.Gateway.Routes
import OrderMesh.Platform.Degradation
import OrderMesh.Platform.Footprint
import OrderMesh.Platform.Isolation

namespace OrderMesh.Platform.Boundary

open Gateway Transition
open Orders (Caller)

/-- What a login has handed a token out for, and when. -/
structure Grant where
  payload : LoginRequest
  row : Int × User
  time : Int

def Grant.token (edge : Edge) (g : Grant) : String :=
  createAccessToken edge.jwt g.row.1 g.row.2.email g.row.2.role edge.jwtSecret
    edge.jwtExpiryMinutes g.time

/-- A request that the gateway has sent on. -/
structure Forward where
  client : ClientRequest
  fresh : Uuid
  user : TokenData
  request : InternalRequest
  time : Int

structure Served where
  forward : Forward
  op : Operation
  reply : Except Raised Reply

/-- The accounts, what the selects of the logins have found, and the requests on their way to the
services, whose operations, events included, are recorded in `done`. -/
structure State where
  accounts : UniqueKey.Db register.key Raised
  logins : List (LoginRequest × Option (Int × User))
  granted : List Grant
  now : Int
  pending : List Forward
  served : List Served
  done : List Operation
  site : Site (Redis Row)

inductive Label
  | elapse (d : Nat)
  | account (a : UniqueKey.Act)
  | select (payload : LoginRequest)
  | answer (i : Nat)
  | request (r : ClientRequest) (fresh : Uuid)
  | deliver (i : Nat) (drawn : Int)
  | handle (op : Operation)

/-- `select(User).where(User.email == email)`. -/
def rowOf (users : Users) (email : String) : Option (Int × User) :=
  users.serial.rows.find? fun r => r.2.email = email

/-- What the event handlers of the services do. -/
def handled : Operation → Bool
  | .setStatus _ status => status = .confirmed ∨ status = .cancelled ∨ status = .shipped
  | .onOrderCreated _ _ | .onOrderCancelled _ | .onStockReserved _ _ _ => true
  | _ => false

/-- The token of a login that succeeds. -/
def grants (edge : Edge) (payload : LoginRequest) (row : Option (Int × User)) (now : Int) :
    List Grant :=
  match row, login edge payload row now with
  | some row, .ok _ => [⟨payload, row, now⟩]
  | _, _ => []

def State.run (s : State) (op : Operation) : State :=
  { s with done := s.done ++ [op], site := (outcome (serve redisCache op) s.site).2 }

def step (edge : Edge) (schemas : Schemas) (s : State) : Label → Option State
  | .elapse d => some { s with now := s.now + d }
  | .account a => (register.step s.accounts a).map fun accounts => { s with accounts := accounts }
  | .select payload =>
      some { s with logins := s.logins ++ [(payload, rowOf s.accounts.table payload.email)] }
  | .answer i =>
      s.logins[i]?.map fun l =>
        { s with
          logins := s.logins.eraseIdx i
          granted := s.granted ++ grants edge l.1 l.2 s.now }
  | .request r fresh =>
      match proxied edge r fresh s.now with
      | .error _ => some s
      | .ok (user, q) => some { s with pending := s.pending ++ [⟨r, fresh, user, q, s.now⟩] }
  | .deliver i drawn =>
      s.pending[i]?.map fun f =>
        let left := { s with pending := s.pending.eraseIdx i }
        match receive edge.fastapi schemas f.request drawn with
        | .error _ => left
        | .ok op =>
            { left.run op with served := s.served ++ [⟨f, op, reply redisCache s.site op⟩] }
  | .handle op => if handled op then some (s.run op) else none

/-- No accounts, an empty Redis, and the registrations about to come. -/
def start {bcrypt : Bcrypt} (requests : Registrations bcrypt) (now : Int) (databases : Databases)
    (outcomes : List Outcome) : State where
  accounts := register.start .empty requests.users
  logins := []
  granted := []
  now := now
  pending := []
  served := []
  done := []
  site := .start databases outcomes

/-- Nobody signs a token: one that passes was handed out by a login. -/
def Unforged (edge : Edge) (s : State) : Label → Prop
  | .request r _ => ∀ token, edge.fastapi.bearer r.lines = .ok token →
      edge.jwt.decode token edge.jwtSecret s.now ≠ none → ∃ g ∈ s.granted, g.token edge = token
  | _ => True

instance (edge : Edge) (s : State) : ∀ a, Decidable (Unforged edge s a)
  | .request r _ =>
      match h : edge.fastapi.bearer r.lines with
      | .error _ => .isTrue fun token htoken => by
          rw [h] at htoken
          cases htoken
      | .ok token =>
          decidable_of_iff (edge.jwt.decode token edge.jwtSecret s.now ≠ none →
            ∃ g ∈ s.granted, g.token edge = token) (by simp [Unforged, h])
  | .elapse _ | .account _ | .select _ | .answer _ | .deliver _ _ | .handle _ => .isTrue trivial

/-- A token is the text of its payload next to the secret. -/
def plainJwt : PyJwt where
  encode payload secret := Json.dumps (fun x : Empty => x.elim) (.arr [payload, .str secret])
  decode token secret now :=
    match (Json.loads token : Option (Json Empty)) with
    | some (.arr [payload, .str key]) =>
        match payload.get? "exp" with
        | some (.int exp) => if key = secret ∧ now < exp * second then some payload else none
        | _ => none
    | _ => none
  decode_encode sub email role exp secret now := by
    rw [Json.loads_dumps]
    simp [Json.defaulted, Json.defaultedItems, Json.defaultedFields, tokenPayload, Json.get?]

def twoHashes : Passwords where
  toBcrypt := twoSalts
  checkpw _ _ := true
  checkpw_hashpw _ _ _ := by simp [twoSalts]

/-- What stands behind `Bearer`. -/
def bearerText (lines : List (String × String)) : Except Raised String :=
  match getHeader lines "Authorization" with
  | some value => .ok (String.ofList (value.toList.drop 7))
  | none => .error (.httpException 403 "Not authenticated")

def shop : Edge where
  jwt := plainJwt
  bcrypt := twoHashes
  fastapi := ⟨bearerText, IntText.int, IntText.int_toString_of_int⟩
  jwtSecret := "change-me"
  jwtExpiryMinutes := 60

def oneItemOnly : Schemas where
  orderCreate _ := some Orders.oneItem
  productCreate _ := none
  shipmentStatusUpdate _ := none

def visitor : Registrations shop.bcrypt.toBcrypt := [(duplicate, true)]

def visitToken : String :=
  createAccessToken plainJwt 1 "dup@example.com" "CUSTOMER" "change-me" 60 0

def visitId : Uuid := ⟨"visit", by decide⟩

/-- An account, a login, and an order placed a second later. -/
def visit : List Label :=
  [.account ⟨0, .lookup⟩, .account ⟨0, .insert⟩, .account ⟨0, .commit⟩,
    .select ⟨"dup@example.com", "secret123"⟩, .answer 0, .elapse 1000000,
    .request ⟨.post, ["orders"], [("Authorization", "Bearer " ++ visitToken)], "[]"⟩ visitId,
    .deliver 0 0]

theorem visit_runs :
    ∃ s, exec (step shop oneItemOnly) (start visitor 0 onePending []) visit = some s ∧
    ∃ e ∈ s.served, lastValue e.forward.client.lines "x-user-id" = none ∧
      lastValue e.forward.client.lines "x-user-role" = none := by
  have hrun : (exec (step shop oneItemOnly) (start visitor 0 onePending []) visit).isSome := by
    decide +kernel
  obtain ⟨s, hs⟩ := Option.isSome_iff_exists.mp hrun
  have hserved : ∀ s ∈ exec (step shop oneItemOnly) (start visitor 0 onePending []) visit,
      ∃ e ∈ s.served, lastValue e.forward.client.lines "x-user-id" = none ∧
        lastValue e.forward.client.lines "x-user-role" = none := by
    decide +kernel
  exact ⟨s, hs, hserved s hs⟩

theorem visit_unforged :
    Meets (step shop oneItemOnly) (Unforged shop) (start visitor 0 onePending []) visit := by
  decide +kernel

/-- The gateway has sent the request. -/
def Sent (edge : Edge) (f : Forward) : Prop :=
  proxied edge f.client f.fresh f.time = .ok (f.user, f.request)

/-- A service has done what the request comes to, at some point of the run. -/
def Answered (edge : Edge) (schemas : Schemas) (origin : Site (Redis Row)) (done : List Operation)
    (e : Served) : Prop :=
  (∃ drawn, receive edge.fastapi schemas e.forward.request drawn = .ok e.op) ∧
    ∃ pre, pre <+: done ∧ e.reply = reply redisCache (after redisCache origin pre) e.op

structure Traced (edge : Edge) (schemas : Schemas) (origin : Site (Redis Row)) (s : State) :
    Prop where
  site : s.site = after redisCache origin s.done
  pending : ∀ f ∈ s.pending, Sent edge f
  served : ∀ e ∈ s.served, Sent edge e.forward ∧ Answered edge schemas origin s.done e
  done : ∀ op ∈ s.done, handled op = true ∨ ∃ e ∈ s.served, e.op = op

section

variable {edge : Edge} {schemas : Schemas} {origin : Site (Redis Row)}

theorem Answered.mono {done done' : List Operation} {e : Served} (hpre : done <+: done')
    (h : Answered edge schemas origin done e) : Answered edge schemas origin done' e := by
  obtain ⟨hreceive, pre, hprefix, hreply⟩ := h
  exact ⟨hreceive, pre, hprefix.trans hpre, hreply⟩

theorem step_traced {s t : State} {a : Label} (hs : Traced edge schemas origin s)
    (h : step edge schemas s a = some t) : Traced edge schemas origin t := by
  cases a with
  | elapse d =>
    cases h
    exact ⟨hs.site, hs.pending, hs.served, hs.done⟩
  | account a =>
    obtain ⟨accounts, -, rfl⟩ := Option.map_eq_some_iff.mp h
    exact ⟨hs.site, hs.pending, hs.served, hs.done⟩
  | select payload =>
    cases h
    exact ⟨hs.site, hs.pending, hs.served, hs.done⟩
  | answer i =>
    obtain ⟨l, -, rfl⟩ := Option.map_eq_some_iff.mp h
    exact ⟨hs.site, hs.pending, hs.served, hs.done⟩
  | request r fresh =>
    simp only [step] at h
    split at h
    · cases h
      exact hs
    · rename_i user q hproxied
      cases h
      refine ⟨hs.site, ?_, hs.served, hs.done⟩
      intro f hf
      rcases List.mem_append.mp hf with hold | hnew
      · exact hs.pending f hold
      · rw [List.mem_singleton.mp hnew]
        exact hproxied
  | deliver i drawn =>
    obtain ⟨f, hf, heq⟩ := Option.map_eq_some_iff.mp h
    have hpending : ∀ f' ∈ s.pending.eraseIdx i, Sent edge f' :=
      fun f' hf' => hs.pending f' (List.mem_of_mem_eraseIdx hf')
    dsimp only at heq
    split at heq
    · cases heq
      exact ⟨hs.site, hpending, hs.served, hs.done⟩
    · rename_i op hreceive
      cases heq
      have hprefix : s.done <+: s.done ++ [op] := List.prefix_append _ _
      refine ⟨?_, hpending, ?_, ?_⟩
      · show (outcome (serve redisCache op) s.site).2 = after redisCache origin (s.done ++ [op])
        rw [after_append, hs.site]
      · intro e he
        rcases List.mem_append.mp he with hold | hnew
        · exact ⟨(hs.served e hold).1, (hs.served e hold).2.mono hprefix⟩
        · rw [List.mem_singleton.mp hnew]
          refine ⟨hs.pending f (List.mem_of_getElem? hf), ⟨drawn, hreceive⟩, s.done, hprefix, ?_⟩
          show reply redisCache s.site op = _
          rw [hs.site]
      · intro op' hop'
        rcases List.mem_append.mp hop' with hold | hnew
        · refine (hs.done op' hold).imp_right fun hserved => ?_
          obtain ⟨e, he, heq⟩ := hserved
          exact ⟨e, List.mem_append_left _ he, heq⟩
        · exact .inr ⟨_, List.mem_append_right _ List.mem_cons_self,
            (List.mem_singleton.mp hnew).symm⟩
  | handle op =>
    simp only [step] at h
    split_ifs at h with hhandled
    cases h
    have hprefix : s.done <+: s.done ++ [op] := List.prefix_append _ _
    refine ⟨?_, hs.pending, ?_, ?_⟩
    · show (outcome (serve redisCache op) s.site).2 = after redisCache origin (s.done ++ [op])
      rw [after_append, hs.site]
    · exact fun e he => ⟨(hs.served e he).1, (hs.served e he).2.mono hprefix⟩
    · intro op' hop'
      rcases List.mem_append.mp hop' with hold | hnew
      · exact hs.done op' hold
      · exact .inl ((List.mem_singleton.mp hnew) ▸ hhandled)

theorem exec_traced {bcrypt : Bcrypt} {requests : Registrations bcrypt} {now : Int}
    {databases : Databases} {outcomes : List Outcome} {as : List Label} {s : State}
    (h : exec (step edge schemas) (start requests now databases outcomes) as = some s) :
    Traced edge schemas (.start databases outcomes) s := by
  refine exec_invariant (Traced edge schemas (.start databases outcomes))
    (fun _ _ _ hs hstep => step_traced hs hstep) ?_ h
  refine ⟨rfl, ?_, ?_, ?_⟩
  · simp [start]
  · simp [start]
  · simp [start]

/-- Behind the gateway there is nothing but what a client can ask the gateway for. -/
theorem Traced.reached {s : State} (hs : Traced edge schemas origin s) {e : Served}
    (he : e ∈ s.served) : ∃ identity, getIdentity e.forward.request.lines = some identity ∧
      Reached edge.fastapi schemas identity e.forward.client e.op := by
  obtain ⟨hsent, ⟨drawn, hreceive⟩, -⟩ := hs.served e he
  exact receive_proxied hsent hreceive

end

/-- The row a token was handed out for holds the password that was shown. -/
structure Grant.Genuine (edge : Edge) (users : Users) (g : Grant) : Prop where
  row : g.row ∈ users.serial.rows
  email : g.row.2.email = g.payload.email
  password : verifyPassword edge.bcrypt g.payload.password g.row.2.hashedPassword = true

/-- A request showed the token of a login. -/
def Vouched (edge : Edge) (granted : List Grant) (f : Forward) : Prop :=
  ∃ g ∈ granted, edge.fastapi.bearer f.client.lines = .ok (g.token edge) ∧ g.time ≤ f.time

structure Inv (edge : Edge) (requests : Registrations edge.bcrypt.toBcrypt) (s : State) : Prop where
  accounts : UniqueKey.Inv register .empty s.accounts
  rows : s.accounts.requests.map UniqueKey.Request.row = requests.users
  logins : ∀ l ∈ s.logins, ∀ row ∈ l.2,
    row ∈ s.accounts.table.serial.rows ∧ row.2.email = l.1.email
  granted : ∀ g ∈ s.granted, g.Genuine edge s.accounts.table ∧ g.time ≤ s.now
  pending : ∀ f ∈ s.pending, Vouched edge s.granted f
  served : ∀ e ∈ s.served, Vouched edge s.granted e.forward

section

variable {edge : Edge} {schemas : Schemas} {requests : Registrations edge.bcrypt.toBcrypt}

theorem inv_start (now : Int) (databases : Databases) (outcomes : List Outcome) :
    Inv edge requests (start requests now databases outcomes) where
  accounts := UniqueKey.inv_start _ _
  rows := UniqueKey.requests_start _ _
  logins := by simp [start]
  granted := by simp [start]
  pending := by simp [start]
  served := by simp [start]

theorem Vouched.mono {granted granted' : List Grant} {f : Forward}
    (h : Vouched edge granted f) (hsub : ∀ g ∈ granted, g ∈ granted') :
    Vouched edge granted' f := by
  obtain ⟨g, hg, hrest⟩ := h
  exact ⟨g, hsub g hg, hrest⟩

theorem Grant.Genuine.mono {users users' : Users} {g : Grant} (h : g.Genuine edge users)
    (hsub : ∀ r ∈ users.serial.rows, r ∈ users'.serial.rows) : g.Genuine edge users' :=
  ⟨hsub g.row h.row, h.email, h.password⟩

/-- An account that is there stays as it is. -/
theorem rows_step {d d' : UniqueKey.Db register.key Raised} {a : UniqueKey.Act}
    (h : register.step d a = some d') {r : Int × User} (hr : r ∈ d.table.serial.rows) :
    r ∈ d'.table.serial.rows := by
  obtain ⟨q, ph, t, hq, hadv, rfl⟩ := UniqueKey.step_advanced h
  rcases hadv.table with hsame | hnew
  · rw [hsame.1]
    exact hr
  · obtain ⟨id, -, hrows⟩ := hnew
    rw [hrows]
    exact List.mem_append_left _ hr

theorem rows_requests_step {d d' : UniqueKey.Db register.key Raised} {a : UniqueKey.Act}
    (h : register.step d a = some d') :
    d'.requests.map UniqueKey.Request.row = d.requests.map UniqueKey.Request.row := by
  have hrun : exec register.step d [a] = some d' := exec_cons_eq_some.mpr ⟨d', h, rfl⟩
  exact UniqueKey.exec_requests hrun

theorem rowOf_eq_some {users : Users} {email : String} {row : Int × User}
    (h : rowOf users email = some row) : row ∈ users.serial.rows ∧ row.2.email = email := by
  have hmem := List.mem_of_find?_eq_some h
  have hemail := List.find?_some h
  exact ⟨hmem, of_decide_eq_true hemail⟩

/-- A login hands a token out for a row it has found and whose password it was shown. -/
theorem mem_grants {payload : LoginRequest} {row : Option (Int × User)} {now : Int} {g : Grant}
    (h : g ∈ grants edge payload row now) : g.payload = payload ∧ row = some g.row ∧
      g.time = now ∧
      verifyPassword edge.bcrypt payload.password g.row.2.hashedPassword = true := by
  unfold grants at h
  split at h
  · rename_i found token hlogin
    have hg := List.mem_singleton.mp h
    subst hg
    refine ⟨rfl, rfl, rfl, ?_⟩
    by_contra hnot
    rw [login, if_neg hnot] at hlogin
    cases hlogin
  · cases h

theorem vouched_of_unforged {s : State} {r : ClientRequest} {fresh : Uuid} {user : TokenData}
    {q : InternalRequest} (hgranted : ∀ g ∈ s.granted, g.time ≤ s.now)
    (hunforged : Unforged edge s (.request r fresh))
    (h : proxied edge r fresh s.now = .ok (user, q)) :
    Vouched edge s.granted ⟨r, fresh, user, q, s.now⟩ := by
  obtain ⟨access, target, hroute, hcheck, -⟩ := proxied_eq_ok h
  obtain ⟨token, hbearer, hdecode⟩ := (Access.check_eq_ok hcheck).1
  obtain ⟨g, hg, htoken⟩ := hunforged token hbearer (decode_ne_none hdecode)
  exact ⟨g, hg, htoken ▸ hbearer, hgranted g hg⟩

theorem step_inv {s t : State} {a : Label} (hs : Inv edge requests s)
    (hunforged : Unforged edge s a) (h : step edge schemas s a = some t) :
    Inv edge requests t := by
  cases a with
  | elapse d =>
    cases h
    refine ⟨hs.accounts, hs.rows, hs.logins, ?_, hs.pending, hs.served⟩
    intro g hg
    obtain ⟨hgenuine, htime⟩ := hs.granted g hg
    refine ⟨hgenuine, ?_⟩
    show g.time ≤ s.now + d
    omega
  | account a =>
    obtain ⟨accounts, haccounts, rfl⟩ := Option.map_eq_some_iff.mp h
    have hkept : ∀ r ∈ s.accounts.table.serial.rows, r ∈ accounts.table.serial.rows :=
      fun r hr => rows_step haccounts hr
    refine ⟨UniqueKey.step_inv hs.accounts haccounts, ?_, ?_, ?_, hs.pending, hs.served⟩
    · exact (rows_requests_step haccounts).trans hs.rows
    · intro l hl row hrow
      obtain ⟨hmem, hemail⟩ := hs.logins l hl row hrow
      exact ⟨hkept row hmem, hemail⟩
    · intro g hg
      obtain ⟨hgenuine, htime⟩ := hs.granted g hg
      exact ⟨hgenuine.mono hkept, htime⟩
  | select payload =>
    cases h
    refine ⟨hs.accounts, hs.rows, ?_, hs.granted, hs.pending, hs.served⟩
    intro l hl row hrow
    rcases List.mem_append.mp hl with hold | hnew
    · exact hs.logins l hold row hrow
    · rw [List.mem_singleton.mp hnew] at hrow ⊢
      exact rowOf_eq_some hrow
  | answer i =>
    obtain ⟨l, hl, rfl⟩ := Option.map_eq_some_iff.mp h
    have hmore : ∀ g ∈ s.granted, g ∈ s.granted ++ grants edge l.1 l.2 s.now :=
      fun g hg => List.mem_append_left _ hg
    refine ⟨hs.accounts, hs.rows, ?_, ?_, ?_, ?_⟩
    · intro l' hl'
      exact hs.logins l' (List.mem_of_mem_eraseIdx hl')
    · intro g hg
      rcases List.mem_append.mp hg with hold | hnew
      · exact hs.granted g hold
      · obtain ⟨hpayload, hrow, htime, hpassword⟩ := mem_grants hnew
        obtain ⟨hmem, hemail⟩ := hs.logins l (List.mem_of_getElem? hl) g.row hrow
        refine ⟨⟨hmem, ?_, ?_⟩, le_of_eq htime⟩
        · rw [hpayload, hemail]
        · rw [hpayload, hpassword]
    · exact fun f hf => (hs.pending f hf).mono hmore
    · exact fun e he => (hs.served e he).mono hmore
  | request r fresh =>
    simp only [step] at h
    split at h
    · cases h
      exact hs
    · rename_i user q hproxied
      cases h
      refine ⟨hs.accounts, hs.rows, hs.logins, hs.granted, ?_, hs.served⟩
      intro f hf
      rcases List.mem_append.mp hf with hold | hnew
      · exact hs.pending f hold
      · rw [List.mem_singleton.mp hnew]
        exact vouched_of_unforged (fun g hg => (hs.granted g hg).2) hunforged hproxied
  | deliver i drawn =>
    obtain ⟨f, hf, heq⟩ := Option.map_eq_some_iff.mp h
    have hpending : ∀ f' ∈ s.pending.eraseIdx i, Vouched edge s.granted f' :=
      fun f' hf' => hs.pending f' (List.mem_of_mem_eraseIdx hf')
    dsimp only at heq
    split at heq
    · cases heq
      exact ⟨hs.accounts, hs.rows, hs.logins, hs.granted, hpending, hs.served⟩
    · cases heq
      refine ⟨hs.accounts, hs.rows, hs.logins, hs.granted, hpending, ?_⟩
      intro e he
      rcases List.mem_append.mp he with hold | hnew
      · exact hs.served e hold
      · rw [List.mem_singleton.mp hnew]
        exact hs.pending f (List.mem_of_getElem? hf)
  | handle op =>
    simp only [step] at h
    split_ifs at h
    cases h
    exact ⟨hs.accounts, hs.rows, hs.logins, hs.granted, hs.pending, hs.served⟩

/-- A request was sent on for the account of a registration, in time, for a token that the
password of the account has bought: bcrypt does not tell the two passwords apart. The account's id
and role are attached behind the client's own headers. -/
structure Credentialed (edge : Edge) (s : State) (f : Forward) (g : Grant)
    (r : RegisterRequest × edge.bcrypt.Salt) : Prop where
  granted : g ∈ s.granted
  account : (g.row.1, newUser edge.bcrypt.toBcrypt r.1 r.2) ∈ s.accounts.table.serial.rows
  email : g.payload.email = r.1.email
  password : hashPassword edge.bcrypt.toBcrypt g.payload.password r.2 =
    hashPassword edge.bcrypt.toBcrypt r.1.password r.2
  user : f.user = ⟨toString g.row.1, r.1.email, r.1.role.value⟩
  attached : f.request.lines = (keptHeaders f.client.lines).entries ++
    [("X-User-Id", toString g.row.1), ("X-User-Role", r.1.role.value),
      ("X-Request-ID", requestId f.client.lines f.fresh)]
  valid : g.time ≤ f.time ∧ f.time < g.time + edge.jwtExpiryMinutes * (60 * second)
  admin : f.client.method = .post → f.client.path = ["inventory", "products"] → r.1.role = .admin
  product : ∀ e ∈ s.served, e.forward = f → ∀ drawn payload,
    e.op = .createProduct drawn payload → r.1.role = .admin

theorem exec_boundary {now : Int} {databases : Databases} {outcomes : List Outcome}
    {as : List Label} {s : State}
    (hm : Meets (step edge schemas) (Unforged edge) (start requests now databases outcomes) as)
    (h : exec (step edge schemas) (start requests now databases outcomes) as = some s) :
    Inv edge requests s :=
  exec_invariant_of_meets (Inv edge requests)
    (fun _ _ _ hs hunforged hstep => step_inv hs hunforged hstep)
    (inv_start now databases outcomes) hm h

/-- Every account was made by one of the registrations. -/
theorem registered {s : State} (hs : Inv edge requests s) {row : Int × User}
    (hrow : row ∈ s.accounts.table.serial.rows) :
    ∃ r ∈ requests, row.2 = newUser edge.bcrypt.toBcrypt r.1 r.2 := by
  rcases (hs.accounts.rows row).mp hrow with hempty | hmade
  · cases hempty
  · obtain ⟨q, hq, -, heq⟩ := hmade
    have husers : row.2 ∈ requests.users := by
      rw [← hs.rows, ← heq]
      exact List.mem_map_of_mem hq
    obtain ⟨r, hr, hnew⟩ := List.mem_map.mp husers
    exact ⟨r, hr, hnew.symm⟩

theorem value_eq_admin {role : Role} (h : role.value = "ADMIN") : role = .admin := by
  cases role with
  | admin => rfl
  | customer => simp [Role.value] at h

theorem credentialed_of_vouched {origin : Site (Redis Row)} {s : State} (hs : Inv edge requests s)
    (htraced : Traced edge schemas origin s) {f : Forward} (hsent : Sent edge f)
    (hf : Vouched edge s.granted f) : ∃ g, ∃ r ∈ requests, Credentialed edge s f g r := by
  obtain ⟨g, hg, hbearer, htime⟩ := hf
  obtain ⟨hgenuine, -⟩ := hs.granted g hg
  obtain ⟨r, hr, hrow⟩ := registered hs hgenuine.row
  have hpair : g.row = (g.row.1, newUser edge.bcrypt.toBcrypt r.1 r.2) := by rw [← hrow]
  obtain ⟨access, target, hroute, hcheck, hrequest⟩ := proxied_eq_ok hsent
  obtain ⟨⟨token, htoken, hdecode⟩, hadmin⟩ := Access.check_eq_ok hcheck
  have hsame : token = g.token edge := Except.ok.inj (htoken.symm.trans hbearer)
  rw [hsame, Grant.token, decodeToken_create] at hdecode
  have hlive : f.time < expiry g.time edge.jwtExpiryMinutes * second := by
    by_contra hlate
    rw [if_neg hlate] at hdecode
    cases hdecode
  rw [if_pos hlive] at hdecode
  have huser : f.user = ⟨toString g.row.1, r.1.email, r.1.role.value⟩ := by
    rw [← Except.ok.inj hdecode, hrow]
    rfl
  have hrole : f.client.method = .post → f.client.path = ["inventory", "products"] →
      r.1.role = .admin := by
    intro hmethod hpath
    rw [hmethod, hpath] at hroute
    have haccess : access = .requireAdmin := by
      cases hroute
      rfl
    have hrole := hadmin haccess
    rw [huser] at hrole
    exact value_eq_admin hrole
  refine ⟨g, r, hr, hg, hpair ▸ hgenuine.row, ?_, ?_, huser, ?_, ⟨htime, ?_⟩, hrole, ?_⟩
  · rw [← hgenuine.email, hrow]
    rfl
  · have hverified : verifyPassword edge.bcrypt g.payload.password
        (hashPassword edge.bcrypt.toBcrypt r.1.password r.2) = true := by
      have hpassword := hgenuine.password
      rwa [hrow] at hpassword
    rw [verifyPassword_hash] at hverified
    exact of_decide_eq_true hverified
  · rw [hrequest, huser]
    exact entries_forwardHeaders _ _ _
  · exact lt_of_lt_of_le hlive (expiry_bounds g.time edge.jwtExpiryMinutes).1
  · intro e he hforward drawn payload hop
    obtain ⟨identity, -, hreached⟩ := htraced.reached he
    rw [hop, hforward] at hreached
    cases hreached with
    | createProduct hpost => exact hrole hpost.1 hpost.2

/-- Every request behind the gateway comes from the holder of an account, with the role the
account was registered with. -/
theorem forwarded_credentialed {now : Int} {databases : Databases} {outcomes : List Outcome}
    {as : List Label} {s : State}
    (hm : Meets (step edge schemas) (Unforged edge) (start requests now databases outcomes) as)
    (h : exec (step edge schemas) (start requests now databases outcomes) as = some s)
    {f : Forward} (hf : f ∈ s.pending ∨ ∃ e ∈ s.served, e.forward = f) :
    ∃ g, ∃ r ∈ requests, Credentialed edge s f g r := by
  have hs := exec_boundary hm h
  have htraced := exec_traced h
  rcases hf with hpending | hserved
  · exact credentialed_of_vouched hs htraced (htraced.pending f hpending) (hs.pending f hpending)
  · obtain ⟨e, he, rfl⟩ := hserved
    exact credentialed_of_vouched hs htraced (htraced.served e he).1 (hs.served e he)

end

theorem forwarded_credentialed_visit :
    ∃ s, exec (step shop oneItemOnly) (start visitor 0 onePending []) visit = some s ∧
      ∃ e ∈ s.served, ∃ g, ∃ r ∈ visitor, Credentialed shop s e.forward g r := by
  obtain ⟨s, hs, e, he, -⟩ := visit_runs
  exact ⟨s, hs, e, he, forwarded_credentialed visit_unforged hs (.inr ⟨e, he, rfl⟩)⟩

/-- Shipments stay as they were created, and no order is newly delivered. -/
structure Confined (d e : Databases) : Prop where
  shipments : ∀ id shipment, d.shipments.get? id = some shipment →
    e.shipments.get? id = some shipment
  created : ∀ id shipment, e.shipments.get? id = some shipment →
    d.shipments.get? id = some shipment ∨ shipment.status = .created
  delivered : ∀ id, Orders.statusOf e.orders id = some .delivered →
    Orders.statusOf d.orders id = some .delivered

theorem confined_refl (d : Databases) : Confined d d :=
  ⟨fun _ _ h => h, fun _ _ h => .inl h, fun _ h => h⟩

theorem confined_trans (d e f : Databases) (hde : Confined d e) (hef : Confined e f) :
    Confined d f := by
  refine ⟨fun id shipment h => hef.shipments id shipment (hde.shipments id shipment h), ?_,
    fun id h => hde.delivered id (hef.delivered id h)⟩
  intro id shipment h
  rcases hef.created id shipment h with hmid | hcreated
  · exact hde.created id shipment hmid
  · exact .inr hcreated

/-- Neither a delivered status nor the status of a shipment is written. -/
def Tame : Commit → Prop
  | .setStatus _ status => status ≠ .delivered
  | .updateStatus _ _ => False
  | _ => True

theorem confined_commit {c : Commit} (hc : Tame c) (d : Databases) : Confined d (d.commit c) := by
  cases c with
  | createOrder customerId payload =>
    refine ⟨fun _ _ h => h, fun _ _ h => .inl h, ?_⟩
    intro id h
    simp only [Databases.commit] at h
    cases hnew : Orders.newOrder customerId payload with
    | none => simpa [hnew] using h
    | some order =>
      simp only [hnew, Option.elim_some, Orders.statusOf_insert] at h
      split_ifs at h
      · rw [(Orders.newOrder_eq_some hnew).1] at h
        cases h
      · exact h
  | setStatus j status =>
    refine ⟨fun _ _ h => h, fun _ _ h => .inl h, ?_⟩
    intro id h
    simp only [Databases.commit, Orders.statusOf_writeStatus] at h
    split_ifs at h
    · obtain ⟨old, -, heq⟩ := Option.map_eq_some_iff.mp h
      exact absurd heq hc
    · exact h
  | createShipment orderId courier year =>
    have hinsert : ∀ new, Shipping.insertShipment d.shipments orderId courier year = some new →
        new.1.2.status = .created ∧ new.2 = d.shipments.insert new.1.2 := by
      intro new hnew
      unfold Shipping.insertShipment at hnew
      dsimp only at hnew
      split_ifs at hnew
      cases hnew
      exact ⟨rfl, rfl⟩
    cases hnew : Shipping.insertShipment d.shipments orderId courier year with
    | none =>
      have hsame : d.commit (.createShipment orderId courier year) = d := by
        simp [Databases.commit, hnew]
      rw [hsame]
      exact confined_refl d
    | some new =>
      obtain ⟨hstatus, htable⟩ := hinsert new hnew
      refine ⟨?_, ?_, fun _ h => h⟩
      · intro id shipment h
        simpa [Databases.commit, hnew, htable] using
          SerialTable.get?_insert_of_some h new.1.2
      · intro id shipment h
        simp only [Databases.commit, hnew, Option.elim_some, htable] at h
        rw [SerialTable.get?_insert] at h
        split_ifs at h
        · cases h
          exact .inr hstatus
        · exact .inl h
  | updateStatus id status => exact hc.elim
  | _ => exact ⟨fun _ _ h => h, fun _ _ h => .inl h, fun _ h => h⟩

theorem tame_of_handled {op : Operation} (h : handled op = true) :
    (∀ c, Commits op c → Tame c) ∧ .shipmentDelivered ∉ op.eventTypes := by
  cases op with
  | setStatus id status =>
    refine ⟨?_, by simp [Operation.eventTypes]⟩
    intro c hc
    cases hc
    rintro rfl
    cases h
  | onOrderCreated orderId items =>
    refine ⟨?_, by simp [Operation.eventTypes]⟩
    intro c hc
    cases hc
    trivial
  | onOrderCancelled orderId =>
    refine ⟨?_, by simp [Operation.eventTypes]⟩
    intro c hc
    cases hc
    trivial
  | onStockReserved orderId courier year =>
    refine ⟨?_, by simp [Operation.eventTypes]⟩
    intro c hc
    cases hc
    trivial
  | _ => cases h

theorem tame_of_reached {fastapi : Fastapi} {schemas : Schemas} {identity : Identity}
    {r : ClientRequest} {op : Operation} (h : Reached fastapi schemas identity r op) :
    (∀ c, Commits op c → Tame c) ∧ .shipmentDelivered ∉ op.eventTypes := by
  cases h with
  | createOrder hroute hbody =>
    refine ⟨?_, by simp [Operation.eventTypes]⟩
    intro c hc
    cases hc
    trivial
  | cancelOrder hroute hid =>
    refine ⟨?_, by simp [Operation.eventTypes]⟩
    intro c hc
    cases hc
    exact fun heq => by cases heq
  | createProduct hroute hrole hbody =>
    refine ⟨?_, by simp [Operation.eventTypes]⟩
    intro c hc
    cases hc
    trivial
  | _ =>
    refine ⟨?_, by simp [Operation.eventTypes]⟩
    intro c hc
    cases hc

/-- Whatever clients send, no shipment changes, none is announced as delivered, and no order
becomes delivered: the gateway has no route to `update_shipment_status`. -/
theorem shipments_confined {edge : Edge} {schemas : Schemas} {bcrypt : Bcrypt}
    {requests : Registrations bcrypt} {now : Int} {databases : Databases}
    {outcomes : List Outcome} {as : List Label} {s : State}
    (h : exec (step edge schemas) (start requests now databases outcomes) as = some s) :
    Confined databases s.site.databases ∧
      ∀ p ∈ s.site.published, p.eventType ≠ .shipmentDelivered := by
  have hs := exec_traced h
  have htame : ∀ op ∈ s.done,
      (∀ c, Commits op c → Tame c) ∧ .shipmentDelivered ∉ op.eventTypes := by
    intro op hop
    rcases hs.done op hop with hhandled | hserved
    · exact tame_of_handled hhandled
    · obtain ⟨e, he, rfl⟩ := hserved
      obtain ⟨identity, -, hreached⟩ := hs.reached he
      exact tame_of_reached hreached
  rw [hs.site]
  constructor
  · have hafter := after_databases redisCache confined_refl confined_trans
      (fun op hop c hc d => confined_commit ((htame op hop).1 c hc) d)
      (Site.start databases outcomes)
    exact hafter
  · intro p hp htype
    rcases mem_published_after redisCache _ hp with hnone | hevent
    · cases hnone
    · obtain ⟨op, hop, hmem⟩ := hevent
      rw [htype] at hmem
      exact (htame op hop).2 hmem

theorem shipments_confined_visit :
    ∃ s, exec (step shop oneItemOnly) (start visitor 0 onePending []) visit = some s ∧
      Confined onePending s.site.databases := by
  obtain ⟨s, hs, -⟩ := visit_runs
  exact ⟨s, hs, (shipments_confined hs).1⟩

theorem newOrder_customerId {customerId : Int} {payload : Orders.OrderCreate}
    {order : Orders.Order} (h : Orders.newOrder customerId payload = some order) :
    order.customerId = customerId := by
  simp only [Orders.newOrder, bind, Option.bind_eq_some_iff] at h
  obtain ⟨c, hc, t, -, items, -, heq⟩ := h
  cases heq
  exact Orders.integer_eq_some hc

section

variable {databases : Databases} {outcomes : List Outcome} {ops : List Operation}

/-- A cached row is one that its database has held in the run. -/
theorem genuine_after {k : Key} {row : Row}
    (h : (after redisCache (.start databases outcomes) ops).cache.entries.get? (cacheKey k) =
      some row) :
    ∃ pre post, ops = pre ++ post ∧
      (after noCache (.bare databases) pre).databases.row k = some row := by
  have hmirror := mirror_after databases outcomes ops
  obtain ⟨d, ⟨pre, ⟨post, hpost⟩, hd⟩, hrow⟩ := hmirror.coherent.genuine k row h
  exact ⟨pre, post, hpost.symm, hd ▸ hrow⟩

theorem honest_after : Honest (after redisCache (.start databases outcomes) ops) := by
  intro id row hget
  obtain ⟨pre, post, hops, hrow⟩ := genuine_after (k := .order id) hget
  obtain ⟨cached, hcached, rfl⟩ := Option.map_eq_some_iff.mp hrow
  have hretains : Retains (after noCache (.bare databases) pre).databases
      (after noCache (after noCache (.bare databases) pre) post).databases :=
    after_databases (R := Retains) noCache (fun _ _ order hget => ⟨order, hget, rfl⟩)
      (fun _ _ _ => retains_trans) (fun _ _ c _ d => retains_commit d c) _
  obtain ⟨order, horder, howner⟩ := hretains id cached hcached
  have hnow : (after redisCache (.start databases outcomes) ops).databases =
      (after noCache (after noCache (.bare databases) pre) post).databases := by
    rw [(mirror_after databases outcomes ops).databases, hops, after, List.foldl_append]
    rfl
  exact ⟨cached, order, rfl, hnow ▸ horder, howner⟩

/-- A lookup of a shipment shows no order. -/
theorem shipment_of_getShipment {id : Int} {row : Row}
    (h : (outcome (getShipment redisCache id)
      (after redisCache (.start databases outcomes) ops)).1 = .ok row) :
    ∃ shipment, row = .shipment id shipment := by
  unfold getShipment at h
  generalize hs : after redisCache (.start databases outcomes) ops = s at h
  cases hfound : s.cache.found (cacheKey (.shipment id)) with
  | some cached =>
    rw [lookUp_found _ _ _ hfound] at h
    have heq : row = cached := (Except.ok.inj h).symm
    have hentry := (Redis.get?_forget (Redis.get?_of_found hfound)).1
    rw [← hs] at hentry
    obtain ⟨pre, post, -, hrow⟩ := genuine_after (k := .shipment id) hentry
    obtain ⟨shipment, -, hshipment⟩ := Option.map_eq_some_iff.mp hrow
    exact ⟨shipment, heq.trans hshipment.symm⟩
  | none =>
    rw [lookUp_missed _ _ _ hfound] at h
    obtain ⟨hrow, -⟩ := fromDatabase_eq_ok h
    obtain ⟨shipment, -, hshipment⟩ := Option.map_eq_some_iff.mp hrow
    exact ⟨shipment, hshipment.symm⟩

end

/-- The identity a route of the order service acts for. -/
def callerIn : Operation → Option Caller
  | .createOrder caller _ | .listOrders caller | .getOrder caller _ | .cancelOrder caller _ =>
      some caller
  | _ => none

/-- The caller of an account is its row, while `int` reads the id. -/
theorem callerOf_account (id : Int) (role : String) :
    callerOf ⟨toString id, role⟩ = ⟨decide (role = "ADMIN"),
      if id.natAbs < 10 ^ IntText.maxDigits then some id else none⟩ := by
  rw [callerOf, IntText.int_toString]

/-- The orders that a reply shows are of one customer. -/
def ShowsOnly (customerId : Int) (reply : Except Raised Reply) : Prop :=
  ∀ body, reply = .ok body → ∀ id order, .order id order ∈ body.orders →
    order.customerId = customerId

theorem showsOnly_map {customerId : Int} {x : Except Raised Row}
    (h : ∀ row, x = .ok row → ∀ id order, row = .order id order → order.customerId = customerId) :
    ShowsOnly customerId (x.map .row) := by
  intro body hbody id order hmem
  cases x with
  | error e => cases hbody
  | ok row =>
    cases hbody
    exact h row rfl id order (List.mem_singleton.mp hmem).symm

theorem customerId_of_row {customerId id : Int} {row : Row} {order : Orders.Order}
    (h : row.customerId = .ok customerId) (heq : row = .order id order) :
    order.customerId = customerId := by
  subst heq
  exact Except.ok.inj h

theorem checkOwner_anonymous (row : Row) : checkOwner ⟨false, none⟩ row ≠ .ok () := by
  rw [checkOwner_eq]
  cases row.customerId <;> simp

/-- Without a number for the customer there is no order to look up. -/
theorem getOrder_anonymous (id : Int) (s : Site (Redis Row)) (row : Row) :
    (outcome (getOrder redisCache ⟨false, none⟩ id) s).1 ≠ .ok row := by
  intro h
  unfold getOrder at h
  cases hfound : s.cache.found (cacheKey (.order id)) with
  | some cached =>
    rw [lookUp_found _ _ _ hfound] at h
    cases hcheck : checkOwner ⟨false, none⟩ cached with
    | error e =>
      rw [hcheck] at h
      cases h
    | ok u => exact checkOwner_anonymous cached hcheck
  | none =>
    rw [lookUp_missed _ _ _ hfound] at h
    exact checkOwner_anonymous row (fromDatabase_eq_ok h).2

theorem cancelOrder_anonymous (id : Int) (s : Site (Redis Row)) (row : Row) :
    (outcome (cancelOrder redisCache ⟨false, none⟩ id) s).1 ≠ .ok row := by
  intro h
  rw [cancelOrder, outcome_databases, Orders.loadCancellable] at h
  cases hget : s.databases.orders.get? id with
  | none =>
    rw [hget] at h
    cases h
  | some order =>
    rw [hget] at h
    have hnot : ¬ (false = true ∨ (none : Option Int) = some order.customerId) := by simp
    simp only [if_neg hnot, if_true] at h
    cases h

theorem showsOnly_of_error {customerId : Int} {reply : Except Raised Reply}
    (h : ∀ body, reply ≠ .ok body) : ShowsOnly customerId reply :=
  fun body hbody => absurd hbody (h body)

/-- A new order is the caller's. -/
theorem createOrder_shows {admin : Bool} {id : Int} {payload : Orders.OrderCreate}
    {s : Site (Redis Row)} {row : Row}
    (h : (outcome (createOrder ⟨admin, some id⟩ payload) s).1 = .ok row) :
    ∃ n order, row = .order n order ∧ order.customerId = id := by
  simp only [createOrder, intUserId] at h
  rw [liftExcept_ok_bind, outcome_databases] at h
  cases hnew : Orders.newOrder id payload with
  | none =>
    rw [hnew] at h
    cases h
  | some order =>
    rw [hnew] at h
    cases h
    exact ⟨_, order, rfl, newOrder_customerId hnew⟩

section

variable {databases : Databases} {outcomes : List Outcome} {ops : List Operation}
  {fastapi : Fastapi} {schemas : Schemas} {r : ClientRequest} {op : Operation} {id : Int}

/-- A customer is shown orders of their own, whatever the caches hold. -/
theorem showsOnly_of_caller {identity : Identity}
    (hcaller : callerOf identity = ⟨false, some id⟩) (hrole : identity.role ≠ "ADMIN")
    (h : Reached fastapi schemas identity r op) :
    ShowsOnly id (reply redisCache (after redisCache (.start databases outcomes) ops) op) := by
  have hhonest : Honest (after redisCache (.start databases outcomes) ops) := honest_after
  cases h with
  | createOrder hroute hbody =>
    rename_i payload
    rw [hcaller, reply, serve, outcome_map]
    refine showsOnly_map fun row hrow id' order heq => ?_
    obtain ⟨n, new, hnew, howner⟩ := createOrder_shows hrow
    cases heq.symm.trans hnew
    exact howner
  | listOrders hroute =>
    rw [hcaller, reply, outcome_listOrders]
    intro body hbody id' order hmem
    cases hbody
    obtain ⟨row, hrow, heq⟩ := List.mem_map.mp hmem
    cases heq
    exact (mem_ownRows.mp hrow).2
  | getOrder hroute hid =>
    rw [hcaller, reply, serve, outcome_map]
    refine showsOnly_map fun row hrow id' order heq => ?_
    exact customerId_of_row ((lookedUp_getOrder hhonest id _).own hrow) heq
  | cancelOrder hroute hid =>
    rw [hcaller, reply, serve, outcome_map]
    refine showsOnly_map fun row hrow id' order heq => ?_
    exact customerId_of_row ((cancelledBy_cancelOrder id _ _).own hrow) heq
  | listProducts hroute =>
    intro body hbody id' order hmem
    cases hbody
    obtain ⟨row, -, heq⟩ := List.mem_map.mp hmem
    cases heq
  | createProduct hroute hadmin hbody => exact absurd hadmin hrole
  | getShipment hroute hid =>
    rw [reply, serve, outcome_map]
    refine showsOnly_map fun row hrow id' order heq => ?_
    obtain ⟨shipment, hshipment⟩ := shipment_of_getShipment hrow
    rw [heq] at hshipment
    cases hshipment

/-- Nobody is shown an order without a number for the customer. -/
theorem showsOnly_of_anonymous {identity : Identity} (customerId : Int)
    (hcaller : callerOf identity = ⟨false, none⟩) (hrole : identity.role ≠ "ADMIN")
    (h : Reached fastapi schemas identity r op) :
    ShowsOnly customerId
      (reply redisCache (after redisCache (.start databases outcomes) ops) op) := by
  cases h with
  | createOrder hroute hbody =>
    rw [hcaller]
    exact showsOnly_of_error fun body hbody => by cases hbody
  | listOrders hroute =>
    rw [hcaller]
    exact showsOnly_of_error fun body hbody => by cases hbody
  | getOrder hroute hid =>
    rw [hcaller, reply, serve, outcome_map]
    exact showsOnly_map fun row hrow => absurd hrow (getOrder_anonymous _ _ row)
  | cancelOrder hroute hid =>
    rw [hcaller, reply, serve, outcome_map]
    exact showsOnly_map fun row hrow => absurd hrow (cancelOrder_anonymous _ _ row)
  | listProducts hroute =>
    intro body hbody id' order hmem
    cases hbody
    obtain ⟨row, -, heq⟩ := List.mem_map.mp hmem
    cases heq
  | createProduct hroute hadmin hbody => exact absurd hadmin hrole
  | getShipment hroute hid =>
    rw [reply, serve, outcome_map]
    refine showsOnly_map fun row hrow id' order heq => ?_
    obtain ⟨shipment, hshipment⟩ := shipment_of_getShipment hrow
    rw [heq] at hshipment
    cases hshipment

theorem showsOnly_of_reached {role : String} (hrole : role ≠ "ADMIN")
    (h : Reached fastapi schemas ⟨toString id, role⟩ r op) :
    ShowsOnly id (reply redisCache (after redisCache (.start databases outcomes) ops) op) := by
  have hcaller := callerOf_account id role
  rw [decide_eq_false hrole] at hcaller
  by_cases hdigits : id.natAbs < 10 ^ IntText.maxDigits
  · rw [if_pos hdigits] at hcaller
    exact showsOnly_of_caller hcaller hrole h
  · rw [if_neg hdigits] at hcaller
    exact showsOnly_of_anonymous id hcaller hrole h

end

/-- What a request with honest headers was answered: the route it asks for was taken in the name
of the account behind its token, and a customer's reply shows no order of anybody else. -/
structure Attributed (edge : Edge) (schemas : Schemas) (e : Served) (g : Grant)
    (r : RegisterRequest × edge.bcrypt.Salt) : Prop where
  reached : Reached edge.fastapi schemas ⟨toString g.row.1, r.1.role.value⟩ e.forward.client e.op
  caller : ∀ caller ∈ callerIn e.op, caller = ⟨decide (r.1.role.value = "ADMIN"),
    if g.row.1.natAbs < 10 ^ IntText.maxDigits then some g.row.1 else none⟩
  shown : r.1.role = .customer → ShowsOnly g.row.1 e.reply

theorem callerIn_of_reached {fastapi : Fastapi} {schemas : Schemas} {identity : Identity}
    {r : ClientRequest} {op : Operation} (h : Reached fastapi schemas identity r op)
    {caller : Caller} (hcaller : caller ∈ callerIn op) : caller = callerOf identity := by
  cases h <;> simp_all [callerIn]

/-- From the login to the reply: a request whose headers do not claim another identity is
answered for the account its token was handed out for. -/
theorem served_attributed {edge : Edge} {schemas : Schemas}
    {requests : Registrations edge.bcrypt.toBcrypt} {now : Int} {databases : Databases}
    {outcomes : List Outcome} {as : List Label} {s : State}
    (hm : Meets (step edge schemas) (Unforged edge) (start requests now databases outcomes) as)
    (h : exec (step edge schemas) (start requests now databases outcomes) as = some s)
    {e : Served} (he : e ∈ s.served)
    (hid : ∀ sent, lastValue e.forward.client.lines "x-user-id" = some sent →
      sent = e.forward.user.userId)
    (hrole : ∀ sent, lastValue e.forward.client.lines "x-user-role" = some sent →
      sent = e.forward.user.role) :
    ∃ g, ∃ r ∈ requests, Credentialed edge s e.forward g r ∧ Attributed edge schemas e g r := by
  have htraced := exec_traced h
  obtain ⟨hsent, -, pre, hpre, hreply⟩ := htraced.served e he
  obtain ⟨g, r, hr, hcred⟩ := credentialed_of_vouched (exec_boundary hm h) htraced hsent
    ((exec_boundary hm h).served e he)
  obtain ⟨identity, hidentity, hreached⟩ := htraced.reached he
  obtain ⟨access, target, -, -, hrequest⟩ := proxied_eq_ok hsent
  have hseen : identity = ⟨toString g.row.1, r.1.role.value⟩ := by
    have hforwarded := (getIdentity_forward_eq_iff e.forward.client.lines e.forward.user
      e.forward.fresh).mpr ⟨hid, hrole⟩
    rw [hrequest] at hidentity
    rw [← Option.some.inj (hforwarded.symm.trans hidentity), hcred.user]
  subst hseen
  refine ⟨g, r, hr, hcred, hreached, ?_, ?_⟩
  · intro caller hcaller
    rw [callerIn_of_reached hreached hcaller, callerOf_account]
  · intro hcustomer
    rw [hreply]
    refine showsOnly_of_reached ?_ hreached
    rw [hcustomer]
    simp [Role.value]

theorem served_attributed_visit :
    ∃ s, exec (step shop oneItemOnly) (start visitor 0 onePending []) visit = some s ∧
      ∃ e ∈ s.served, ∃ g, ∃ r ∈ visitor,
        Credentialed shop s e.forward g r ∧ Attributed shop oneItemOnly e g r := by
  obtain ⟨s, hs, e, he, hid, hrole⟩ := visit_runs
  refine ⟨s, hs, e, he, served_attributed visit_unforged hs he ?_ ?_⟩
  · simp [hid]
  · simp [hrole]

end OrderMesh.Platform.Boundary
