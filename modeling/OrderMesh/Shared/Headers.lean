namespace OrderMesh

/-- The headers of a request: the lines as received, with their names in lower case. -/
def exposed (lines : List (String × String)) : List (String × String) :=
  lines.map fun h => (h.1.toLower, h.2)

/-- `request.headers.get`: case-insensitive, the first matching line. -/
def getHeader (lines : List (String × String)) (name : String) : Option String :=
  (exposed lines).lookup name.toLower

structure TokenData where
  userId : String
  email : String
  role : String

structure Identity where
  userId : String
  role : String
  deriving DecidableEq

/-- `none` when a header is missing (422). -/
def getIdentity (lines : List (String × String)) : Option Identity := do
  let userId ← getHeader lines "X-User-Id"
  let role ← getHeader lines "X-User-Role"
  return ⟨userId, role⟩

/-- The text of a fresh `uuid4`. -/
structure Uuid where
  text : String
  ne_empty : text ≠ ""

/-- The id the middleware assigns: the one received, or a fresh one when that is
missing or empty. -/
def requestId (lines : List (String × String)) (fresh : Uuid) : String :=
  match getHeader lines "X-Request-ID" with
  | none => fresh.text
  | some received => if received = "" then fresh.text else received

theorem requestId_ne_empty (lines : List (String × String)) (fresh : Uuid) :
    requestId lines fresh ≠ "" := by
  unfold requestId
  split
  · exact fresh.ne_empty
  · split
    · exact fresh.ne_empty
    · assumption

private theorem toLower_toLower_char (c : Char) : c.toLower.toLower = c.toLower := by
  delta Char.toLower
  split
  · split
    · next h1 h2 =>
      simp only [UInt32.le_iff_toNat_le, UInt32.toNat_add, seval] at h1 h2
      omega
    · simp
  · rfl

theorem toLower_toLower (s : String) : s.toLower.toLower = s.toLower := by
  unfold String.toLower
  rw [String.map_map, Function.comp_def]
  simp only [toLower_toLower_char]

end OrderMesh
