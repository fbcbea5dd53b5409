import OrderMesh.Library.Dict
import OrderMesh.Shared.Headers

namespace OrderMesh.Gateway

def skipHeaders : List String := ["host", "content-length", "connection", "authorization"]

/-- The header dictionary `forward` builds. -/
def forwardHeaders (lines : List (String × String)) (user : TokenData) (id : String) :
    Dict String String :=
  let kept := (exposed lines).filter fun h => h.1.toLower ∉ skipHeaders
  (((Dict.ofList kept).set "X-User-Id" user.userId).set "X-User-Role" user.role).set
    "X-Request-ID" id

/-- The lines sent to the internal service, one for each entry. -/
def forward (lines : List (String × String)) (user : TokenData) (fresh : Uuid) :
    List (String × String) :=
  (forwardHeaders lines user (requestId lines fresh)).entries

def asciiText (s : String) : Bool := s.toList.all fun c => c.toNat < 128

/-- The names and values that `httpx` can encode. -/
def asciiLines (lines : List (String × String)) : Bool :=
  lines.all fun h => asciiText h.1 && asciiText h.2

/-- The value of the client's last line of that name (in lower case). -/
def lastValue (lines : List (String × String)) (name : String) : Option String :=
  (exposed lines).reverse.lookup name

theorem toLower_userId : "X-User-Id".toLower = "x-user-id" := by decide +kernel

theorem toLower_userRole : "X-User-Role".toLower = "x-user-role" := by decide +kernel

theorem toLower_requestId : "X-Request-ID".toLower = "x-request-id" := by decide +kernel

def keptHeaders (lines : List (String × String)) : Dict String String :=
  Dict.ofList ((exposed lines).filter fun h => h.1.toLower ∉ skipHeaders)

theorem toLower_of_mem_keys {lines : List (String × String)} {k : String}
    (h : k ∈ (keptHeaders lines).keys) : k.toLower = k := by
  obtain ⟨e, he, rfl⟩ := List.mem_map.mp ((Dict.mem_keys_ofList _ k).mp h)
  obtain ⟨x, -, rfl⟩ := List.mem_map.mp (List.mem_filter.mp he).1
  exact toLower_toLower x.1

/-- The gateway's names are in mixed case, so they never overwrite a client's entry. -/
theorem entries_forwardHeaders (lines : List (String × String)) (user : TokenData) (id : String) :
    (forwardHeaders lines user id).entries = (keptHeaders lines).entries ++
      [("X-User-Id", user.userId), ("X-User-Role", user.role), ("X-Request-ID", id)] := by
  have hmixed : ∀ k : String, k.toLower ≠ k → k ∉ (keptHeaders lines).keys :=
    fun k hk hmem => hk (toLower_of_mem_keys hmem)
  have hid := hmixed "X-User-Id" (by rw [toLower_userId]; decide)
  have hrole := hmixed "X-User-Role" (by rw [toLower_userRole]; decide)
  have hrequest := hmixed "X-Request-ID" (by rw [toLower_requestId]; decide)
  have hid' : ((keptHeaders lines).set "X-User-Id" user.userId).keys =
      (keptHeaders lines).keys ++ ["X-User-Id"] := by rw [Dict.keys_set, if_neg hid]
  have hrole' : (((keptHeaders lines).set "X-User-Id" user.userId).set "X-User-Role"
      user.role).keys = (keptHeaders lines).keys ++ ["X-User-Id", "X-User-Role"] := by
    rw [Dict.keys_set, hid', if_neg (by simp [hrole])]
    simp
  change ((((keptHeaders lines).set "X-User-Id" user.userId).set "X-User-Role" user.role).set
    "X-Request-ID" id).entries = _
  rw [Dict.entries_set_of_notMem _ _ _ (by rw [hrole']; simp [hrequest]),
    Dict.entries_set_of_notMem _ _ _ (by rw [hid']; simp [hrole]),
    Dict.entries_set_of_notMem _ _ _ hid]
  simp

theorem exposed_keptHeaders (lines : List (String × String)) :
    exposed (keptHeaders lines).entries = (keptHeaders lines).entries := by
  have hself : ∀ e ∈ (keptHeaders lines).entries, (e.1.toLower, e.2) = e := by
    intro e he
    have hkey : e.1 ∈ (keptHeaders lines).keys := List.mem_map_of_mem he
    rw [toLower_of_mem_keys hkey]
  exact (List.map_congr_left hself).trans (List.map_id _)

theorem asciiText_toLower {s : String} (h : asciiText s = true) : asciiText s.toLower = true := by
  have hchars := List.all_eq_true.mp h
  apply List.all_eq_true.mpr
  intro c hc
  unfold String.toLower at hc
  rw [String.toList_map] at hc
  obtain ⟨x, hx, rfl⟩ := List.mem_map.mp hc
  have hlow : x.toNat < 128 := of_decide_eq_true (hchars x hx)
  apply decide_eq_true
  unfold Char.toLower
  split
  · rename_i hupper
    simp only [Char.toNat, UInt32.le_iff_toNat_le, UInt32.toNat_add, seval] at hupper hlow ⊢
    omega
  · exact hlow

/-- ASCII headers of the client are sent on, with an ASCII identity and request id. -/
theorem asciiLines_forward {lines : List (String × String)} {user : TokenData} {fresh : Uuid}
    (hlines : asciiLines lines = true) (hid : asciiText user.userId = true)
    (hrole : asciiText user.role = true) (hfresh : asciiText fresh.text = true) :
    asciiLines (forward lines user fresh) = true := by
  have hsent := List.all_eq_true.mp hlines
  have hvalue : ∀ e ∈ exposed lines, asciiText e.1 = true ∧ asciiText e.2 = true := by
    intro e he
    obtain ⟨x, hx, rfl⟩ := List.mem_map.mp he
    have hx := hsent x hx
    rw [Bool.and_eq_true] at hx
    exact ⟨asciiText_toLower hx.1, hx.2⟩
  have hrequest : asciiText (requestId lines fresh) = true := by
    unfold requestId
    split
    · exact hfresh
    · rename_i received hreceived
      split_ifs
      · exact hfresh
      · have hmem := Dict.mem_of_lookup_eq_some hreceived
        exact (hvalue _ hmem).2
  apply List.all_eq_true.mpr
  intro e he
  rw [Bool.and_eq_true]
  rw [forward, entries_forwardHeaders] at he
  cases List.mem_append.mp he with
  | inl hkept =>
    have hmem := (List.mem_filter.mp (Dict.mem_of_mem_ofList hkept)).1
    exact hvalue e hmem
  | inr hown =>
    simp only [List.mem_cons, List.not_mem_nil, or_false] at hown
    have hnames : asciiText "X-User-Id" = true ∧ asciiText "X-User-Role" = true ∧
        asciiText "X-Request-ID" = true := by decide +kernel
    rcases hown with rfl | rfl | rfl
    · exact ⟨hnames.1, hid⟩
    · exact ⟨hnames.2.1, hrole⟩
    · exact ⟨hnames.2.2, hrequest⟩

theorem get?_keptHeaders (lines : List (String × String)) {name : String}
    (hname : name.toLower ∉ skipHeaders) :
    (keptHeaders lines).get? name = lastValue lines name := by
  have hfilter := Dict.lookup_filter_key (fun k : String => decide (k.toLower ∉ skipHeaders))
    (exposed lines).reverse name
  rw [if_pos (decide_eq_true hname)] at hfilter
  rw [keptHeaders, Dict.get?_ofList, ← List.filter_reverse]
  exact hfilter

/-- The receiver reads the client's last line of a name, and the gateway's value
only when the client sent none. -/
theorem getHeader_forward (lines : List (String × String)) (user : TokenData) (fresh : Uuid)
    (name value : String) (hskip : name.toLower.toLower ∉ skipHeaders)
    (hset : [("x-user-id", user.userId), ("x-user-role", user.role),
      ("x-request-id", requestId lines fresh)].lookup name.toLower = some value) :
    getHeader (forward lines user fresh) name =
      some ((lastValue lines name.toLower).getD value) := by
  have hown : exposed [("X-User-Id", user.userId), ("X-User-Role", user.role),
      ("X-Request-ID", requestId lines fresh)] = [("x-user-id", user.userId),
      ("x-user-role", user.role), ("x-request-id", requestId lines fresh)] := by
    simp only [exposed, List.map_cons, List.map_nil, toLower_userId, toLower_userRole,
      toLower_requestId]
  have hexposed : exposed (forward lines user fresh) = (keptHeaders lines).entries ++
      [("x-user-id", user.userId), ("x-user-role", user.role),
        ("x-request-id", requestId lines fresh)] := by
    rw [forward, entries_forwardHeaders, ← hown]
    conv_rhs => rw [← exposed_keptHeaders]
    exact List.map_append
  have hkept : (keptHeaders lines).entries.lookup name.toLower =
      lastValue lines name.toLower := get?_keptHeaders lines hskip
  rw [getHeader, hexposed, List.lookup_append, hkept, hset]
  cases lastValue lines name.toLower <;> rfl

/-- The identity the internal service builds, for any headers of the client. -/
theorem getIdentity_forward (lines : List (String × String)) (user : TokenData) (fresh : Uuid) :
    getIdentity (forward lines user fresh) =
      some ⟨(lastValue lines "x-user-id").getD user.userId,
        (lastValue lines "x-user-role").getD user.role⟩ := by
  have huser := getHeader_forward lines user fresh "X-User-Id" user.userId
    (by decide +kernel) (by rw [toLower_userId]; rfl)
  have huserRole := getHeader_forward lines user fresh "X-User-Role" user.role
    (by decide +kernel) (by rw [toLower_userRole]; simp [Dict.lookup_cons_ite])
  rw [toLower_userId] at huser
  rw [toLower_userRole] at huserRole
  simp [getIdentity, huser, huserRole]

theorem requestId_forward (lines : List (String × String)) (user : TokenData)
    (fresh fresh' : Uuid) :
    requestId (forward lines user fresh) fresh' =
      match lastValue lines "x-request-id" with
      | none => requestId lines fresh
      | some sent => if sent = "" then fresh'.text else sent := by
  have hget := getHeader_forward lines user fresh "X-Request-ID" (requestId lines fresh)
    (by decide +kernel) (by rw [toLower_requestId]; simp [Dict.lookup_cons_ite])
  rw [toLower_requestId] at hget
  rw [requestId, hget]
  cases lastValue lines "x-request-id" with
  | none => exact if_neg (requestId_ne_empty lines fresh)
  | some sent => rfl

/-- The internal service sees the token's identity and the gateway's request id. -/
structure Forwarded (lines : List (String × String)) (user : TokenData) (fresh fresh' : Uuid) :
    Prop where
  identity : getIdentity (forward lines user fresh) = some ⟨user.userId, user.role⟩
  requestId : requestId (forward lines user fresh) fresh' = OrderMesh.requestId lines fresh

/-- The client's last line of each name the gateway sets, if there is one, already
has the gateway's value; an empty request id stands for the receiver's fresh one. -/
structure Unspoofed (lines : List (String × String)) (user : TokenData) (fresh fresh' : Uuid) :
    Prop where
  userId : ∀ sent, lastValue lines "x-user-id" = some sent → sent = user.userId
  role : ∀ sent, lastValue lines "x-user-role" = some sent → sent = user.role
  requestId : ∀ sent, lastValue lines "x-request-id" = some sent →
    (if sent = "" then fresh'.text else sent) = OrderMesh.requestId lines fresh

theorem getD_eq_iff (o : Option String) (value : String) :
    o.getD value = value ↔ ∀ sent, o = some sent → sent = value := by
  cases o with
  | none => simp
  | some sent => simp

theorem getIdentity_forward_eq_iff (lines : List (String × String)) (user : TokenData)
    (fresh : Uuid) :
    getIdentity (forward lines user fresh) = some ⟨user.userId, user.role⟩ ↔
      (∀ sent, lastValue lines "x-user-id" = some sent → sent = user.userId) ∧
        ∀ sent, lastValue lines "x-user-role" = some sent → sent = user.role := by
  rw [getIdentity_forward, Option.some.injEq, Identity.mk.injEq, getD_eq_iff, getD_eq_iff]

/-- What the internal service sees is the gateway's exactly when the client sends
nothing else under these names. -/
theorem forwarded_iff_unspoofed (lines : List (String × String)) (user : TokenData)
    (fresh fresh' : Uuid) :
    Forwarded lines user fresh fresh' ↔ Unspoofed lines user fresh fresh' := by
  have hidentity := getIdentity_forward_eq_iff lines user fresh
  have hrequest : requestId (forward lines user fresh) fresh' = requestId lines fresh ↔
      ∀ sent, lastValue lines "x-request-id" = some sent →
        (if sent = "" then fresh'.text else sent) = requestId lines fresh := by
    rw [requestId_forward]
    cases lastValue lines "x-request-id" with
    | none => simp
    | some sent => simp
  constructor
  · rintro ⟨hid, hreq⟩
    obtain ⟨huser, hrole⟩ := hidentity.mp hid
    exact ⟨huser, hrole, hrequest.mp hreq⟩
  · rintro ⟨huser, hrole, hreq⟩
    exact ⟨hidentity.mpr ⟨huser, hrole⟩, hrequest.mpr hreq⟩

/-- Two unspoofed requests with one token give the same identity, whatever else they send. -/
theorem identity_noninterference {lines₁ lines₂ : List (String × String)} {user : TokenData}
    {fresh₁ fresh₂ fresh₁' fresh₂' : Uuid} (h₁ : Unspoofed lines₁ user fresh₁ fresh₁')
    (h₂ : Unspoofed lines₂ user fresh₂ fresh₂') :
    getIdentity (forward lines₁ user fresh₁) = getIdentity (forward lines₂ user fresh₂) := by
  have hid₁ := (getIdentity_forward_eq_iff lines₁ user fresh₁).mpr ⟨h₁.userId, h₁.role⟩
  have hid₂ := (getIdentity_forward_eq_iff lines₂ user fresh₂).mpr ⟨h₂.userId, h₂.role⟩
  exact hid₁.trans hid₂.symm

/-- A customer who sends the identity headers reaches the service as an administrator. -/
theorem forward_spoofed_identity :
    ¬ Forwarded [("X-User-Id", "1"), ("X-User-Role", "ADMIN")] ⟨"5", "u@e.com", "CUSTOMER"⟩
      ⟨"g", by decide⟩ ⟨"h", by decide⟩ := by
  intro h
  have hidentity := h.identity
  rw [getIdentity_forward] at hidentity
  have hadmin := congrArg (Option.map Identity.role) hidentity
  simp [lastValue, exposed, toLower_userId, toLower_userRole, Dict.lookup_cons_ite] at hadmin

end OrderMesh.Gateway
