import Mathlib.Data.List.Basic

namespace Retry

universe u

variable {σ ε α : Type u}

open EStateM (Result)

/-- The loop ends in the value of the first run that returns, or in the last exception;
`none` where no run was made. -/
def retry (body : Nat → σ → Result ε σ α) : List Nat → Option ε → σ → Result (Option ε) σ α
  | [], last, s => .error last s
  | n :: ns, _, s =>
      match body n s with
      | .ok a t => .ok a t
      | .error e t => retry body ns (some e) t

/-- The runs for the numbers all raise; they lead from one state and last exception to
another. -/
inductive Failed (body : Nat → σ → Result ε σ α) :
    List Nat → Option ε → σ → Option ε → σ → Prop
  | nil (last : Option ε) (s : σ) : Failed body [] last s last s
  | cons {n : Nat} {ns : List Nat} {last last' : Option ε} {s t u : σ} {e : ε}
      (hraised : body n s = .error e t) (hrest : Failed body ns (some e) t last' u) :
      Failed body (n :: ns) last s last' u

variable {body : Nat → σ → Result ε σ α} {ns : List Nat} {last last' : Option ε} {s t : σ}

theorem retry_cons_ok {n : Nat} {a : α} (h : body n s = .ok a t) :
    retry body (n :: ns) last s = .ok a t := by
  rw [retry, h]

theorem retry_cons_error {n : Nat} {e : ε} (h : body n s = .error e t) :
    retry body (n :: ns) last s = retry body ns (some e) t := by
  rw [retry, h]

/-- A loop that raises has made all its runs in vain. -/
theorem retry_eq_error :
    retry body ns last s = .error last' t ↔ Failed body ns last s last' t := by
  induction ns generalizing last s with
  | nil =>
    constructor
    · intro h
      cases h
      exact .nil last' t
    · intro h
      cases h
      rfl
  | cons n ns ih =>
    constructor
    · intro h
      cases hn : body n s with
      | ok a u =>
        rw [retry_cons_ok hn] at h
        cases h
      | error e u =>
        rw [retry_cons_error hn] at h
        exact .cons hn (ih.mp h)
    · intro h
      cases h with
      | cons hraised hrest => rw [retry_cons_error hraised, ih.mpr hrest]

/-- A loop that returns does so in the first run that returns. -/
theorem retry_eq_ok {a : α} : retry body ns last s = .ok a t ↔
    ∃ pre n post mid u, ns = pre ++ n :: post ∧ Failed body pre last s mid u ∧
      body n u = .ok a t := by
  induction ns generalizing last s with
  | nil =>
    constructor
    · intro h
      cases h
    · intro h
      obtain ⟨pre, n, post, mid, u, heq, -⟩ := h
      cases pre <;> cases heq
  | cons n ns ih =>
    constructor
    · intro h
      cases hn : body n s with
      | ok b u =>
        rw [retry_cons_ok hn] at h
        cases h
        exact ⟨[], n, ns, last, s, rfl, .nil last s, hn⟩
      | error e u =>
        rw [retry_cons_error hn] at h
        obtain ⟨pre, k, post, mid, v, rfl, hfailed, hk⟩ := ih.mp h
        exact ⟨n :: pre, k, post, mid, v, rfl, .cons hn hfailed, hk⟩
    · intro h
      obtain ⟨pre, k, post, mid, v, heq, hfailed, hk⟩ := h
      cases hfailed with
      | nil =>
        cases heq
        exact retry_cons_ok hk
      | cons hraised hrest =>
        cases heq
        rw [retry_cons_error hraised]
        exact ih.mpr ⟨_, k, post, mid, v, rfl, hrest, hk⟩

/-- The rule for runs that raise: the invariant speaks of the runs made so far. -/
theorem Failed.rule (I : List Nat → σ → Prop)
    (hstep : ∀ done n s e t, I done s → body n s = .error e t → I (done ++ [n]) t)
    (done : List Nat) (hs : I done s) (h : Failed body ns last s last' t) : I (done ++ ns) t := by
  induction h generalizing done with
  | nil last s => rwa [List.append_nil]
  | cons hraised hrest ih =>
    have hnext := ih _ (hstep _ _ _ _ _ hs hraised)
    rwa [List.append_assoc, List.singleton_append] at hnext

end Retry
