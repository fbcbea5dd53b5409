import OrderMesh.Platform.Boundary

namespace OrderMesh.Platform.Boundary

open Gateway Transition

/-- The token a login of the account gets at this time. -/
def accountToken (edge : Edge) (id : Int) (account : RegisterRequest) (made : Int) : String :=
  createAccessToken edge.jwt id account.email account.role.value edge.jwtSecret
    edge.jwtExpiryMinutes made

/-- Whom the gateway takes the bearer of the token for. -/
def accountUser (id : Int) (account : RegisterRequest) : TokenData :=
  ⟨toString id, account.email, account.role.value⟩

/-- What the dependency of a route says to the bearer of a token. -/
def admitted (access : Access) (user : TokenData) (limit now : Int) : Except Raised TokenData :=
  if now < limit then
    if access = .requireAdmin ∧ user.role ≠ "ADMIN" then
      .error (.httpException 403 "Admin access required")
    else .ok user
  else .error (.httpException 401 "Invalid or expired token")

variable {edge : Edge} {schemas : Schemas}

theorem rows_boundary_step {s t : State} {a : Label} (h : step edge schemas s a = some t)
    {row : Int × User} (hrow : row ∈ s.accounts.table.serial.rows) :
    row ∈ t.accounts.table.serial.rows := by
  cases a with
  | elapse d =>
    cases h
    exact hrow
  | account a =>
    obtain ⟨accounts, haccounts, rfl⟩ := Option.map_eq_some_iff.mp h
    exact rows_step haccounts hrow
  | select payload =>
    cases h
    exact hrow
  | answer i =>
    obtain ⟨l, -, rfl⟩ := Option.map_eq_some_iff.mp h
    exact hrow
  | request r fresh =>
    simp only [step] at h
    split at h
    · cases h
      exact hrow
    · cases h
      exact hrow
  | deliver i drawn =>
    obtain ⟨f, -, heq⟩ := Option.map_eq_some_iff.mp h
    dsimp only at heq
    split at heq
    · cases heq
      exact hrow
    · cases heq
      exact hrow
  | handle op =>
    simp only [step] at h
    split_ifs at h
    cases h
    exact hrow

theorem rows_boundary_exec {s t : State} {as : List Label}
    (h : exec (step edge schemas) s as = some t) {row : Int × User}
    (hrow : row ∈ s.accounts.table.serial.rows) : row ∈ t.accounts.table.serial.rows := by
  apply exec_invariant (fun u => row ∈ u.accounts.table.serial.rows) _ hrow h
  intro u a v hu hstep
  exact rows_boundary_step hstep hu

/-- The select of a login finds the one account of the email. -/
theorem rowOf_account {users : Users} {id : Int} {user : User}
    (h : (id, user) ∈ users.serial.rows) : rowOf users user.email = some (id, user) := by
  have hsome : (rowOf users user.email).isSome := by
    apply List.find?_isSome.mpr
    exact ⟨(id, user), h, decide_eq_true rfl⟩
  obtain ⟨row, hrow⟩ := Option.isSome_iff_exists.mp hsome
  obtain ⟨hmem, hemail⟩ := rowOf_eq_some hrow
  have hsame : row = (id, user) := users.unique row hmem (id, user) h hemail
  rw [hrow, hsame]

theorem login_account (id : Int) (account : RegisterRequest) (salt : edge.bcrypt.Salt)
    (password : String) (now : Int) :
    login edge ⟨account.email, password⟩
      (some (id, newUser edge.bcrypt.toBcrypt account salt)) now =
      if hashPassword edge.bcrypt.toBcrypt password salt =
          hashPassword edge.bcrypt.toBcrypt account.password salt then
        .ok (accountToken edge id account now)
      else .error (.httpException 401 "Invalid credentials") := by
  have hverify : verifyPassword edge.bcrypt password
      (newUser edge.bcrypt.toBcrypt account salt).hashedPassword =
        decide (hashPassword edge.bcrypt.toBcrypt password salt =
          hashPassword edge.bcrypt.toBcrypt account.password salt) :=
    verifyPassword_hash edge.bcrypt password account.password salt
  simp only [login, hverify, decide_eq_true_eq]
  rfl

theorem requireAdmin_of_ok {lines : List (String × String)} {now : Int} {user : TokenData}
    (h : currentUser edge lines now = .ok user) :
    requireAdmin edge lines now =
      if user.role ≠ "ADMIN" then .error (.httpException 403 "Admin access required")
      else .ok user := by
  rw [requireAdmin, h]
  by_cases hrole : user.role = "ADMIN"
  · have hpass : ¬ user.role ≠ "ADMIN" := not_not_intro hrole
    rw [if_neg hpass]
    exact if_neg hpass
  · rw [if_pos hrole]
    exact if_pos hrole

theorem check_of_ok {lines : List (String × String)} {now : Int} {user : TokenData}
    (h : currentUser edge lines now = .ok user) (access : Access) :
    access.check edge lines now =
      if access = .requireAdmin ∧ user.role ≠ "ADMIN" then
        .error (.httpException 403 "Admin access required")
      else .ok user := by
  cases access with
  | currentUser => simpa [Access.check] using h
  | requireAdmin => simpa [Access.check] using requireAdmin_of_ok h

theorem check_of_error {lines : List (String × String)} {now : Int} {e : Raised}
    (h : currentUser edge lines now = .error e) (access : Access) :
    access.check edge lines now = .error e := by
  cases access with
  | currentUser => exact h
  | requireAdmin =>
    show requireAdmin edge lines now = .error e
    rw [requireAdmin, h]
    rfl

theorem check_accountToken {id : Int} {account : RegisterRequest} {made : Int}
    {lines : List (String × String)}
    (h : edge.fastapi.bearer lines = .ok (accountToken edge id account made)) (access : Access)
    (now : Int) :
    access.check edge lines now = admitted access (accountUser id account)
      (expiry made edge.jwtExpiryMinutes * second) now := by
  have huser : currentUser edge lines now =
      if now < expiry made edge.jwtExpiryMinutes * second then .ok (accountUser id account)
      else .error (.httpException 401 "Invalid or expired token") := by
    rw [currentUser, h]
    exact decodeToken_create edge.jwt id account.email account.role.value edge.jwtSecret
      edge.jwtExpiryMinutes made now
  unfold admitted
  by_cases hlive : now < expiry made edge.jwtExpiryMinutes * second
  · rw [if_pos hlive] at huser ⊢
    exact check_of_ok huser access
  · rw [if_neg hlive] at huser ⊢
    exact check_of_error huser access

theorem asciiText_toString (n : Int) : asciiText (toString n) = true := by
  apply List.all_eq_true.mpr
  intro c hc
  rw [Decimal.toList_toString] at hc
  cases List.mem_append.mp hc with
  | inl hsign =>
    split_ifs at hsign
    · rw [List.mem_singleton.mp hsign]
      decide
    · cases hsign
  | inr hdigit =>
    have hchar := Nat.isDigit_of_mem_toDigits (by decide) (by decide) hdigit
    simp only [Char.isDigit, Bool.and_eq_true, decide_eq_true_eq, UInt32.le_iff_toNat_le] at hchar
    have hhigh : c.toNat ≤ 57 := hchar.2
    apply decide_eq_true
    omega

/-- ASCII headers are sent on for any account. -/
theorem asciiLines_account (id : Int) (account : RegisterRequest) {lines : List (String × String)}
    {fresh : Uuid} (hlines : asciiLines lines = true) (hfresh : asciiText fresh.text = true) :
    asciiLines (forward lines (accountUser id account) fresh) = true := by
  refine asciiLines_forward hlines (asciiText_toString id) ?_ hfresh
  show asciiText account.role.value = true
  cases account.role with
  | admin => decide
  | customer => decide

/-- An account that is there can be logged in to ever after, with the passwords that bcrypt
cannot tell from its own and no others; the gateway takes the token of the login for the
account until its expiry, at most a second before its minutes are over, and never again. It sends
a request on if its headers can be encoded, as ASCII headers can. -/
theorem account_usable {s t : State} {as : List Label}
    (hrun : exec (step edge schemas) s as = some t) {id : Int}
    {r : RegisterRequest × edge.bcrypt.Salt}
    (haccount : (id, newUser edge.bcrypt.toBcrypt r.1 r.2) ∈ s.accounts.table.serial.rows) :
    (∀ password, login edge ⟨r.1.email, password⟩ (rowOf t.accounts.table r.1.email) t.now =
      if hashPassword edge.bcrypt.toBcrypt password r.2 =
          hashPassword edge.bcrypt.toBcrypt r.1.password r.2 then
        .ok (accountToken edge id r.1 t.now)
      else .error (.httpException 401 "Invalid credentials")) ∧
    (∀ client fresh now access target,
      edge.fastapi.bearer client.lines = .ok (accountToken edge id r.1 t.now) →
      route edge.fastapi client.method client.path = some (access, some target) →
      proxied edge client fresh now =
        match admitted access (accountUser id r.1) (expiry t.now edge.jwtExpiryMinutes * second)
            now with
        | .ok user =>
            if asciiLines (forward client.lines user fresh) then
              .ok (user, ⟨target.1, client.method, target.2, forward client.lines user fresh,
                client.body⟩)
            else .error (.raised .valueError)
        | .error e => .error (.raised e)) ∧
    (∀ lines fresh, asciiLines lines = true → asciiText fresh.text = true →
      asciiLines (forward lines (accountUser id r.1) fresh) = true) ∧
    expiry t.now edge.jwtExpiryMinutes * second ≤ t.now + edge.jwtExpiryMinutes * (60 * second) ∧
    t.now + edge.jwtExpiryMinutes * (60 * second) <
      expiry t.now edge.jwtExpiryMinutes * second + second := by
  refine ⟨?_, ?_, fun lines fresh hlines hfresh => asciiLines_account id r.1 hlines hfresh, ?_⟩
  · intro password
    have hrow := rows_boundary_exec hrun haccount
    have hfound : rowOf t.accounts.table r.1.email =
        some (id, newUser edge.bcrypt.toBcrypt r.1 r.2) := rowOf_account hrow
    rw [hfound]
    exact login_account id r.1 r.2 password t.now
  · intro client fresh now access target hbearer hroute
    simp only [proxied, hroute, check_accountToken hbearer]
    cases admitted access (accountUser id r.1) (expiry t.now edge.jwtExpiryMinutes * second) now <;>
      rfl
  · obtain ⟨hbefore, hafter⟩ := expiry_bounds t.now edge.jwtExpiryMinutes
    refine ⟨hbefore, ?_⟩
    rw [Int.add_mul, Int.one_mul] at hafter
    exact hafter

/-- A request of the bearer of the token of a login at `made`. -/
def bearing (made : Int) (m : Method) (path : List String) : ClientRequest :=
  ⟨m, path, [("Authorization", "Bearer " ++ accountToken shop 1 duplicate made)], "[]"⟩

/-- An hour after the registration the password still buys a token; with it an order is sent on,
a product is refused, and so is everything another hour later. -/
theorem account_usable_visit :
    ∃ s t, exec (step shop oneItemOnly) (start visitor 0 onePending []) (visit.take 3) = some s ∧
      exec (step shop oneItemOnly) s [.elapse 3600000000] = some t ∧
      login shop ⟨"dup@example.com", "secret123"⟩ (rowOf t.accounts.table "dup@example.com") t.now =
        .ok (accountToken shop 1 duplicate t.now) ∧
      proxied shop (bearing t.now .post ["orders"]) visitId (t.now + 1) =
        .ok (accountUser 1 duplicate, ⟨.order, .post, ["orders"],
          forward (bearing t.now .post ["orders"]).lines (accountUser 1 duplicate) visitId,
          "[]"⟩) ∧
      proxied shop (bearing t.now .post ["inventory", "products"]) visitId (t.now + 1) =
        .error (.raised (.httpException 403 "Admin access required")) ∧
      proxied shop (bearing t.now .post ["orders"]) visitId (t.now + 3600000000) =
        .error (.raised (.httpException 401 "Invalid or expired token")) := by
  have hrun : ∃ s, exec (step shop oneItemOnly) (start visitor 0 onePending []) (visit.take 3) =
      some s ∧ s.now = 0 ∧
        (1, newUser shop.bcrypt.toBcrypt duplicate true) ∈ s.accounts.table.serial.rows := by
    have hsome : (exec (step shop oneItemOnly) (start visitor 0 onePending [])
        (visit.take 3)).isSome := by decide +kernel
    have hall : ∀ s ∈ exec (step shop oneItemOnly) (start visitor 0 onePending []) (visit.take 3),
        s.now = 0 ∧
          (1, newUser shop.bcrypt.toBcrypt duplicate true) ∈ s.accounts.table.serial.rows := by
      decide +kernel
    obtain ⟨s, hs⟩ := Option.isSome_iff_exists.mp hsome
    exact ⟨s, hs, hall s hs⟩
  obtain ⟨s, hs, hnow, hrow⟩ := hrun
  have hlater : exec (step shop oneItemOnly) s [.elapse 3600000000] =
      some { s with now := s.now + (3600000000 : Nat) } := rfl
  obtain ⟨hlogin, hsent, hascii, -⟩ := account_usable (r := (duplicate, true)) hlater hrow
  have hhour : s.now + (3600000000 : Nat) = 3600000000 := by rw [hnow]; rfl
  dsimp only at hlogin hsent
  rw [hhour] at hlogin hsent hlater
  have hbearer : ∀ m path, shop.fastapi.bearer (bearing 3600000000 m path).lines =
      .ok (accountToken shop 1 duplicate 3600000000) := by
    intro m path
    have htext : bearerText [("Authorization", "Bearer " ++
        accountToken shop 1 duplicate 3600000000)] =
          .ok (accountToken shop 1 duplicate 3600000000) := by decide +kernel
    exact htext
  have hlines : asciiLines (forward (bearing 3600000000 .post ["orders"]).lines
      (accountUser 1 duplicate) visitId) = true :=
    hascii _ visitId (by decide +kernel) (by decide +kernel)
  have hlive : admitted .currentUser (accountUser 1 duplicate)
      (expiry 3600000000 shop.jwtExpiryMinutes * second) 3600000001 =
        .ok (accountUser 1 duplicate) := rfl
  have hadmin : admitted .requireAdmin (accountUser 1 duplicate)
      (expiry 3600000000 shop.jwtExpiryMinutes * second) 3600000001 =
        .error (.httpException 403 "Admin access required") := rfl
  have hexpired : admitted .currentUser (accountUser 1 duplicate)
      (expiry 3600000000 shop.jwtExpiryMinutes * second) 7200000000 =
        .error (.httpException 401 "Invalid or expired token") := rfl
  refine ⟨s, _, hs, hlater, (hlogin "secret123").trans (if_pos rfl), ?_, ?_, ?_⟩
  · have hroute := hsent (bearing 3600000000 .post ["orders"]) visitId 3600000001 .currentUser
      (.order, ["orders"]) (hbearer _ _) rfl
    rw [hlive] at hroute
    exact hroute.trans (if_pos hlines)
  · have hroute := hsent (bearing 3600000000 .post ["inventory", "products"]) visitId 3600000001
      .requireAdmin (.inventory, ["inventory", "products"]) (hbearer _ _) rfl
    rw [hadmin] at hroute
    exact hroute
  · have hroute := hsent (bearing 3600000000 .post ["orders"]) visitId 7200000000 .currentUser
      (.order, ["orders"]) (hbearer _ _) rfl
    rw [hexpired] at hroute
    exact hroute

end OrderMesh.Platform.Boundary
