import Mathlib.Data.List.Forall2
import OrderMesh.Library.Pool
import OrderMesh.Library.Transition

namespace Pool

variable {α β : Type*} {R : α → β → Prop} {l : List α} {l' : List β}

theorem rel_getElem? (h : List.Forall₂ R l l') (i : Nat) : Option.Rel R l[i]? l'[i]? := by
  induction h generalizing i with
  | nil => exact .none
  | cons hab _ ih =>
    cases i with
    | zero => exact .some hab
    | succ i => exact ih i

theorem rel_eraseIdx (h : List.Forall₂ R l l') (i : Nat) :
    List.Forall₂ R (l.eraseIdx i) (l'.eraseIdx i) := by
  induction h generalizing i with
  | nil => exact .nil
  | cons hab htail ih =>
    cases i with
    | zero => exact htail
    | succ i => exact .cons hab (ih i)

theorem rel_replace {new : List α} {new' : List β} (h : List.Forall₂ R l l') (i : Nat)
    (hnew : List.Forall₂ R new new') : List.Forall₂ R (replace l i new) (replace l' i new') :=
  List.rel_append (rel_eraseIdx h i) hnew

theorem rel_mem (h : List.Forall₂ R l l') {a : α} (ha : a ∈ l) : ∃ b ∈ l', R a b := by
  induction h with
  | nil => cases ha
  | cons hab _ ih =>
    rcases List.mem_cons.mp ha with rfl | hmem
    · exact ⟨_, List.mem_cons_self, hab⟩
    · obtain ⟨b, hb, hrel⟩ := ih hmem
      exact ⟨b, List.mem_cons_of_mem _ hb, hrel⟩

/-- Where an element is found once the others are filtered, whatever takes its place. -/
theorem exists_filter_replace {p : α → Bool} {i : Nat} {a : α} (h : l[i]? = some a)
    (ha : p a = true) : ∃ j, (l.filter p)[j]? = some a ∧
      ∀ new, (replace l i new).filter p = replace (l.filter p) j (new.filter p) := by
  induction l generalizing i with
  | nil => cases h
  | cons b l ih =>
    cases i with
    | zero =>
      cases h
      refine ⟨0, by rw [List.filter_cons_of_pos ha]; rfl, fun new => ?_⟩
      rw [List.filter_cons_of_pos ha]
      exact List.filter_append ..
    | succ i =>
      obtain ⟨j, hj, hreplace⟩ := ih h
      by_cases hb : p b = true
      · refine ⟨j + 1, by rw [List.filter_cons_of_pos hb]; exact hj, fun new => ?_⟩
        have hstep : (replace (b :: l) (i + 1) new).filter p = b :: (replace l i new).filter p := by
          exact List.filter_cons_of_pos hb
        rw [hstep, hreplace new, List.filter_cons_of_pos hb]
        rfl
      · refine ⟨j, by rw [List.filter_cons_of_neg hb]; exact hj, fun new => ?_⟩
        have hstep : (replace (b :: l) (i + 1) new).filter p = (replace l i new).filter p := by
          exact List.filter_cons_of_neg hb
        rw [hstep, hreplace new, List.filter_cons_of_neg hb]

/-- What is found once the others are filtered is found before, whatever takes its place. -/
theorem exists_replace_filter {p : α → Bool} {j : Nat} {a : α} (h : (l.filter p)[j]? = some a) :
    ∃ i, l[i]? = some a ∧
      ∀ new, (replace l i new).filter p = replace (l.filter p) j (new.filter p) := by
  induction l generalizing j with
  | nil => cases h
  | cons b l ih =>
    by_cases hb : p b = true
    · rw [List.filter_cons_of_pos hb] at h
      cases j with
      | zero =>
        refine ⟨0, h, fun new => ?_⟩
        rw [List.filter_cons_of_pos hb]
        exact List.filter_append ..
      | succ j =>
        obtain ⟨i, hi, hreplace⟩ := ih h
        refine ⟨i + 1, hi, fun new => ?_⟩
        have hstep : (replace (b :: l) (i + 1) new).filter p = b :: (replace l i new).filter p := by
          exact List.filter_cons_of_pos hb
        rw [hstep, hreplace new, List.filter_cons_of_pos hb]
        rfl
    · rw [List.filter_cons_of_neg hb] at h
      obtain ⟨i, hi, hreplace⟩ := ih h
      refine ⟨i + 1, hi, fun new => ?_⟩
      have hstep : (replace (b :: l) (i + 1) new).filter p = (replace l i new).filter p := by
        exact List.filter_cons_of_neg hb
      rw [hstep, hreplace new, List.filter_cons_of_neg hb]

/-- What is filtered out leaves nothing behind. -/
theorem filter_replace_of_neg {p : α → Bool} {i : Nat} {a : α} (h : l[i]? = some a)
    (ha : p a = false) (new : List α) :
    (replace l i new).filter p = l.filter p ++ new.filter p := by
  have herase : (l.eraseIdx i).filter p = l.filter p := by
    induction l generalizing i with
    | nil => cases h
    | cons b l ih =>
      cases i with
      | zero =>
        cases h
        rw [List.filter_cons_of_neg (by simp [ha])]
        rfl
      | succ i =>
        rw [List.eraseIdx_cons_succ, List.filter_cons, List.filter_cons, ih h]
  rw [replace, List.filter_append, herase]

end Pool

namespace Transition

variable {σ α τ β : Type*} {step : σ → α → Option σ} {step' : τ → β → Option τ}

/-- Related states stay related, label by label, in runs whose steps all meet a condition. -/
theorem exec_rel_of_meets (R : τ → σ → Prop) (label : β → α) {guard : τ → β → Prop}
    (hstep : ∀ t s b, R t s → guard t b → Option.Rel R (step' t b) (step s (label b)))
    {t : τ} {s : σ} (h : R t s) {bs : List β} (hm : Meets step' guard t bs) :
    Option.Rel R (exec step' t bs) (exec step s (bs.map label)) := by
  induction bs generalizing t s with
  | nil => exact .some h
  | cons b bs ih =>
    have hone := hstep t s b h hm.1
    have hrest := hm.2
    rw [List.map_cons, exec_cons, exec_cons]
    generalize step' t b = o, step s (label b) = o' at hone hrest ⊢
    cases hone with
    | none => exact .none
    | some huv => exact ih huv (hrest _ rfl)

end Transition
