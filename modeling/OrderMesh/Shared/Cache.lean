import OrderMesh.Library.CacheAside

namespace OrderMesh

inductive RedisError
  | connection
  | timeout
  | response
  deriving DecidableEq

/-- The exceptions a request can end with. -/
inductive Raised
  | redis (error : RedisError)
  | httpException (statusCode : Nat) (detail : String)
  | databaseError
  | keyError
  | valueError
  deriving DecidableEq

/-- How a call of the client turns out; the names are those that expire before it. A call
that takes effect and raises all the same is one that succeeds, as both are answered alike. -/
structure Outcome where
  raised : Option RedisError
  expired : List String

/-- The entries, the names whose delete raised and which were not deleted, set or expired since, and
the outcomes of the calls to come, which succeed from where the list ends. -/
structure Redis (ν : Type) where
  entries : Dict String ν
  undeleted : List String
  outcomes : List Outcome

/-- What a request does with Redis until it returns or raises. -/
abbrev Request (ν : Type) := EStateM Raised (Redis ν)

namespace Redis

variable {ν : Type}

def forget (r : Redis ν) (names : List String) : Redis ν where
  entries := r.entries.filterKeys fun name => name ∉ names
  undeleted := r.undeleted.filter fun name => name ∉ names
  outcomes := r.outcomes

/-- The state the next call finds. -/
def next (r : Redis ν) : Redis ν :=
  { r.forget (r.outcomes.head?.elim [] Outcome.expired) with outcomes := r.outcomes.tail }

/-- Whether the next call raises. -/
def raises (r : Redis ν) : Option RedisError := r.outcomes.head?.bind Outcome.raised

def get (name : String) : Request ν (Option ν) := fun r =>
  match r.raises with
  | some error => .error (.redis error) r.next
  | none => .ok (r.next.entries.get? name) r.next

def set (name : String) (value : ν) : Request ν Unit := fun r =>
  match r.raises with
  | some error => .error (.redis error) r.next
  | none =>
      let after := r.next.forget [name]
      .ok () { after with entries := r.next.entries.set name value }

def delete (names : List String) : Request ν Unit := fun r =>
  match r.raises with
  | some error =>
      .error (.redis error) { r.next with undeleted := r.next.undeleted ++ names }
  | none => .ok () (r.next.forget names)

end Redis

namespace Cache

variable {ν : Type}

def getJson (name : String) : Request ν (Option ν) :=
  tryCatch (Redis.get name) fun _ => pure none

def setJson (name : String) (value : ν) : Request ν Unit :=
  tryCatch (Redis.set name value) fun _ => pure ()

def invalidate (names : List String) : Request ν Unit :=
  tryCatch (if names ≠ [] then Redis.delete names else pure ()) fun _ => pure ()

end Cache

namespace Redis

variable {ν : Type}

/-- After `set_json`. -/
def stored (r : Redis ν) (name : String) (value : ν) : Redis ν :=
  if r.raises = none then
    { r.next.forget [name] with entries := r.next.entries.set name value }
  else r.next

/-- After `invalidate`. -/
def cleared (r : Redis ν) (names : List String) : Redis ν :=
  if names = [] then r
  else if r.raises = none then r.next.forget names
  else { r.next with undeleted := r.next.undeleted ++ names }

/-- What `get_json` finds. -/
def found (r : Redis ν) (name : String) : Option ν :=
  if r.raises = none then r.next.entries.get? name else none

end Redis

namespace Cache

variable {ν : Type} (r : Redis ν)

theorem run_getJson (name : String) : getJson name r = .ok (r.found name) r.next := by
  simp only [getJson, tryCatch, tryCatchThe, MonadExceptOf.tryCatch, EStateM.tryCatch, Redis.get,
    Redis.found]
  cases r.raises <;> rfl

theorem run_setJson (name : String) (value : ν) :
    setJson name value r = .ok () (r.stored name value) := by
  simp only [setJson, tryCatch, tryCatchThe, MonadExceptOf.tryCatch, EStateM.tryCatch, Redis.set,
    Redis.stored]
  cases r.raises <;> rfl

theorem run_invalidate (names : List String) :
    invalidate names r = .ok () (r.cleared names) := by
  by_cases hnames : names = []
  · subst hnames
    rfl
  · simp only [invalidate, tryCatch, tryCatchThe, MonadExceptOf.tryCatch, EStateM.tryCatch,
      Redis.delete, Redis.cleared, if_pos hnames, if_neg hnames]
    cases r.raises <;> rfl

end Cache

namespace Redis

variable {ν : Type} {r : Redis ν} {name : String}

/-- The entry does not expire before one of the calls to come. -/
def Lasting (r : Redis ν) (name : String) : Prop := ∀ o ∈ r.outcomes, name ∉ o.expired

theorem get?_forget {names : List String} {value : ν}
    (h : (r.forget names).entries.get? name = some value) :
    r.entries.get? name = some value ∧ name ∉ names := by
  simp only [forget] at h
  rw [Dict.get?_filterKeys] at h
  split_ifs at h with hnot
  exact ⟨h, of_decide_eq_true hnot⟩

/-- A lookup of the cache depends on the entry it asks for. -/
theorem found_congr {q : Redis ν} (houtcomes : r.outcomes = q.outcomes)
    (hentry : r.entries.get? name = q.entries.get? name) : r.found name = q.found name := by
  simp only [found, raises, next, forget, houtcomes, Dict.get?_filterKeys, hentry]

theorem get?_of_found {value : ν} (h : r.found name = some value) :
    r.next.entries.get? name = some value := by
  unfold found at h
  split_ifs at h
  exact h

theorem get?_forget_of_notMem {names : List String} (h : name ∉ names) :
    (r.forget names).entries.get? name = r.entries.get? name := by
  simp only [forget]
  rw [Dict.get?_filterKeys, if_pos (decide_eq_true h)]

theorem Lasting.next (h : r.Lasting name) : r.next.Lasting name :=
  fun o ho => h o (List.mem_of_mem_tail ho)

theorem Lasting.get?_next (h : r.Lasting name) :
    r.next.entries.get? name = r.entries.get? name := by
  refine get?_forget_of_notMem ?_
  cases hhead : r.outcomes.head? with
  | none => exact List.not_mem_nil
  | some o => exact h o (List.mem_of_mem_head? hhead)

theorem Lasting.get?_stored (h : r.Lasting name) {other : String} (hne : name ≠ other) (value : ν) :
    (r.stored other value).entries.get? name = r.entries.get? name := by
  unfold stored
  split_ifs
  · rw [Dict.get?_set, if_neg hne, h.get?_next]
  · exact h.get?_next

theorem Lasting.get?_cleared (h : r.Lasting name) {names : List String} (hnot : name ∉ names) :
    (r.cleared names).entries.get? name = r.entries.get? name := by
  unfold cleared
  split_ifs
  · rfl
  · exact (get?_forget_of_notMem hnot).trans h.get?_next
  · exact h.get?_next

end Redis

namespace Redis

variable {σ κ ω ν : Type} {b : CacheAside.Backend σ κ String ν ω} {was : σ → Prop} {store : σ}
  {pending : List String} {r : Redis ν}

/-- An entry is the current row unless a delete of it raised or is still to come. -/
def Coherent (b : CacheAside.Backend σ κ String ν ω) (was : σ → Prop) (store : σ)
    (pending : List String) (r : Redis ν) : Prop :=
  CacheAside.Coherent b was store r.entries fun name => name ∈ r.undeleted ∨ name ∈ pending

/-- Names that are forgotten need no delete any more. -/
theorem Coherent.forget {names later : List String} (h : r.Coherent b was store pending)
    (hpending : ∀ name ∈ pending, name ∉ names → name ∈ later) :
    (r.forget names).Coherent b was store later := by
  refine h.shrink fun name value hget => ?_
  obtain ⟨hold, hnot⟩ := get?_forget hget
  refine ⟨hold, ?_⟩
  rintro (hdoubt | hdoubt)
  · exact .inl (List.mem_filter.mpr ⟨hdoubt, decide_eq_true hnot⟩)
  · exact .inr (hpending name hdoubt hnot)

theorem Coherent.next (h : r.Coherent b was store pending) : r.next.Coherent b was store pending :=
  h.forget fun _ hmem _ => hmem

theorem Coherent.stored (h : r.Coherent b was store pending) (hwas : was store) {k : κ} {value : ν}
    (hview : b.view store k = some value) :
    (r.stored (b.name k) value).Coherent b was store pending := by
  unfold Redis.stored
  split_ifs
  · refine CacheAside.Coherent.set h.next hwas hview fun name hne hdoubt => ?_
    refine hdoubt.imp_left fun hold => List.mem_filter.mpr ⟨hold, ?_⟩
    simpa using hne
  · exact h.next

theorem Coherent.cleared {names : List String} (h : r.Coherent b was store (names ++ pending)) :
    (r.cleared names).Coherent b was store pending := by
  unfold Redis.cleared
  split_ifs with hnames
  · subst hnames
    exact h
  · refine h.next.forget fun name hmem hnot => ?_
    exact (List.mem_append.mp hmem).resolve_left hnot
  · refine h.next.shrink fun name value hget => ⟨hget, ?_⟩
    rintro (hdoubt | hdoubt)
    · exact .inl (List.mem_append_left _ hdoubt)
    · rcases List.mem_append.mp hdoubt with hname | hlater
      · exact .inl (List.mem_append_right _ hname)
      · exact .inr hlater

end Redis

end OrderMesh
