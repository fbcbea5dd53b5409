import Mathlib.Data.List.Induction

namespace Transition

variable {σ α : Type*}

/-- The state after a list of labels; `none` when one of them was not enabled. -/
def exec (step : σ → α → Option σ) : σ → List α → Option σ
  | s, [] => some s
  | s, a :: as => (step s a).bind fun t => exec step t as

/-- Every label of the run meets `guard` in the state it fires in. -/
def Meets (step : σ → α → Option σ) (guard : σ → α → Prop) : σ → List α → Prop
  | _, [] => True
  | s, a :: as => guard s a ∧ ∀ t, step s a = some t → Meets step guard t as

variable {step : σ → α → Option σ} {guard : σ → α → Prop}

instance Meets.decidable [∀ s a, Decidable (guard s a)] :
    ∀ s as, Decidable (Meets step guard s as)
  | _, [] => .isTrue trivial
  | s, a :: as =>
      match h : step s a with
      | none => decidable_of_iff (guard s a) (by simp [Meets, h])
      | some t =>
          have : Decidable (Meets step guard t as) := Meets.decidable t as
          decidable_of_iff (guard s a ∧ Meets step guard t as) (by simp [Meets, h])

@[simp] theorem exec_nil (s : σ) : exec step s [] = some s := rfl

theorem exec_cons (s : σ) (a : α) (as : List α) :
    exec step s (a :: as) = (step s a).bind fun t => exec step t as := rfl

theorem exec_cons_eq_some {s u : σ} {a : α} {as : List α} :
    exec step s (a :: as) = some u ↔ ∃ t, step s a = some t ∧ exec step t as = some u := by
  simp only [exec_cons, Option.bind_eq_some_iff]

theorem exec_append (s : σ) (as bs : List α) :
    exec step s (as ++ bs) = (exec step s as).bind fun t => exec step t bs := by
  induction as generalizing s with
  | nil => rfl
  | cons a as ih =>
    rw [List.cons_append, exec_cons, exec_cons]
    cases h : step s a with
    | none => rfl
    | some t => exact ih t

theorem exec_append_eq_some {s u : σ} {as bs : List α} :
    exec step s (as ++ bs) = some u ↔ ∃ t, exec step s as = some t ∧ exec step t bs = some u := by
  rw [exec_append, Option.bind_eq_some_iff]

/-- The invariant rule: one step suffices. -/
theorem exec_invariant (I : σ → Prop) (hstep : ∀ s a t, I s → step s a = some t → I t)
    {s t : σ} {as : List α} (hs : I s) (hrun : exec step s as = some t) : I t := by
  induction as generalizing s with
  | nil => exact Option.some.inj hrun ▸ hs
  | cons a as ih =>
    obtain ⟨u, hu, hrest⟩ := exec_cons_eq_some.mp hrun
    exact ih (hstep s a u hs hu) hrest

/-- The invariant rule for runs whose steps all meet a condition. -/
theorem exec_invariant_of_meets (I : σ → Prop)
    (hstep : ∀ s a t, I s → guard s a → step s a = some t → I t)
    {s t : σ} {as : List α} (hs : I s) (hm : Meets step guard s as)
    (hrun : exec step s as = some t) : I t := by
  induction as generalizing s with
  | nil => exact Option.some.inj hrun ▸ hs
  | cons a as ih =>
    obtain ⟨u, hu, hrest⟩ := exec_cons_eq_some.mp hrun
    exact ih (hstep s a u hs hm.1 hu) (hm.2 u hu) hrest

/-- The invariant rule for invariants that speak of the labels so far. -/
theorem exec_invariant_of_history (I : List α → σ → Prop) {s t : σ} {as : List α} (hs : I [] s)
    (hstep : ∀ bs a u v, exec step s bs = some u → I bs u → step u a = some v → I (bs ++ [a]) v)
    (hrun : exec step s as = some t) : I as t := by
  induction as using List.reverseRecOn generalizing t with
  | nil => exact Option.some.inj hrun ▸ hs
  | append_singleton as a ih =>
    obtain ⟨u, hu, hlast⟩ := exec_append_eq_some.mp hrun
    obtain ⟨v, hv, hnil⟩ := exec_cons_eq_some.mp hlast
    exact Option.some.inj hnil ▸ hstep as a u v hu (ih hu) hv

/-- A run that does not meet a condition has a first step that breaks it. -/
theorem exists_break_of_not_meets {s t : σ} {as : List α} (hrun : exec step s as = some t)
    (hm : ¬ Meets step guard s as) :
    ∃ pre a post u, as = pre ++ a :: post ∧ exec step s pre = some u ∧ ¬ guard u a := by
  induction as generalizing s with
  | nil => exact absurd trivial hm
  | cons a as ih =>
    obtain ⟨u, hu, hrest⟩ := exec_cons_eq_some.mp hrun
    by_cases hg : guard s a
    · have htail : ¬ Meets step guard u as := by
        intro h
        exact hm ⟨hg, fun v hv => Option.some.inj (hu.symm.trans hv) ▸ h⟩
      obtain ⟨pre, b, post, v, rfl, hpre, hb⟩ := ih hrest htail
      exact ⟨a :: pre, b, post, v, rfl, exec_cons_eq_some.mpr ⟨u, hu, hpre⟩, hb⟩
    · exact ⟨[], a, as, s, rfl, rfl, hg⟩

theorem meets_of_forall {p : α → Prop} (s : σ) {as : List α} (h : ∀ a ∈ as, p a) :
    Meets step (fun _ a => p a) s as := by
  induction as generalizing s with
  | nil => trivial
  | cons a as ih =>
    exact ⟨h a (by simp), fun t _ => ih t fun b hb => h b (List.mem_cons_of_mem a hb)⟩

theorem meets_of_always (h : ∀ s a, guard s a) (s : σ) (as : List α) : Meets step guard s as := by
  induction as generalizing s with
  | nil => trivial
  | cons a as ih => exact ⟨h s a, fun t _ => ih t⟩

/-- Two conditions that a run meets, it meets together. -/
theorem Meets.and {guard' : σ → α → Prop} {s : σ} {as : List α} (h : Meets step guard s as)
    (h' : Meets step guard' s as) : Meets step (fun s a => guard s a ∧ guard' s a) s as := by
  induction as generalizing s with
  | nil => trivial
  | cons a as ih => exact ⟨⟨h.1, h'.1⟩, fun t ht => ih (h.2 t ht) (h'.2 t ht)⟩

theorem meets_append {s : σ} {as bs : List α} :
    Meets step guard s (as ++ bs) ↔
      Meets step guard s as ∧ ∀ t, exec step s as = some t → Meets step guard t bs := by
  induction as generalizing s with
  | nil => simp [Meets]
  | cons a as ih =>
    simp only [List.cons_append, Meets, ih, exec_cons_eq_some]
    constructor
    · rintro ⟨hg, h⟩
      exact ⟨⟨hg, fun u hu => (h u hu).1⟩, fun t ⟨u, hu, ht⟩ => (h u hu).2 t ht⟩
    · rintro ⟨⟨hg, h⟩, hb⟩
      exact ⟨hg, fun u hu => ⟨h u hu, fun t ht => hb t ⟨u, hu, ht⟩⟩⟩

end Transition
