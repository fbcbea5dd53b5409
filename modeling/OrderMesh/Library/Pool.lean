import Mathlib.Algebra.GroupWithZero.Nat
import Mathlib.Data.List.Perm.Basic

namespace Pool

variable {α : Type*}

/-- Take out the element at position `i` and add the new ones. -/
def replace (l : List α) (i : Nat) (new : List α) : List α := l.eraseIdx i ++ new

theorem countP_eraseIdx {l : List α} {i : Nat} {a : α} (h : l[i]? = some a) (p : α → Bool) :
    l.countP p = (l.eraseIdx i).countP p + if p a then 1 else 0 := by
  obtain ⟨hlt, rfl⟩ := List.getElem?_eq_some_iff.mp h
  rw [← (List.getElem_cons_eraseIdx_perm hlt).countP_eq p, List.countP_cons]

theorem countP_replace {l : List α} {i : Nat} {a : α} (h : l[i]? = some a) (new : List α)
    (p : α → Bool) :
    (replace l i new).countP p + (if p a then 1 else 0) = l.countP p + new.countP p := by
  have herase := countP_eraseIdx h p
  rw [replace, List.countP_append]
  omega

theorem mem_of_mem_replace {l new : List α} {i : Nat} {a : α} (h : a ∈ replace l i new) :
    a ∈ l ∨ a ∈ new :=
  (List.mem_append.mp h).imp_left List.mem_of_mem_eraseIdx

theorem mem_replace_of_ne {l : List α} {i : Nat} {a b : α} (ha : a ∈ l) (h : l[i]? = some b)
    (hne : a ≠ b) (new : List α) : a ∈ replace l i new := by
  obtain ⟨hlt, rfl⟩ := List.getElem?_eq_some_iff.mp h
  rw [← (List.getElem_cons_eraseIdx_perm hlt).mem_iff, List.mem_cons] at ha
  exact List.mem_append_left new (ha.resolve_left hne)

/-- An element of a list with one place overwritten is the new one or an old one. -/
theorem getElem?_set_cases {l : List α} {i j : Nat} {a b : α} (h : (l.set i a)[j]? = some b) :
    (j = i ∧ b = a) ∨ (j ≠ i ∧ l[j]? = some b) := by
  rw [List.getElem?_set] at h
  split_ifs at h with heq hlt
  · exact .inl ⟨heq.symm, (Option.some.inj h).symm⟩
  · exact .inr ⟨Ne.symm heq, h⟩

theorem getElem?_set_hit {l : List α} {i : Nat} {a : α} (h : l[i]? = some a) (b : α) :
    (l.set i b)[i]? = some b := by
  obtain ⟨hlt, -⟩ := List.getElem?_eq_some_iff.mp h
  rw [List.getElem?_set_self hlt]

theorem getElem?_set_miss {l : List α} {i j : Nat} {a : α} (hne : i ≠ j) (h : l[j]? = some a)
    (b : α) : (l.set i b)[j]? = some a := by
  rw [List.getElem?_set_ne hne, h]

/-- Overwriting an element with one of the same image changes no image. -/
theorem map_set_of_eq {β : Type*} {l : List α} {i : Nat} {a b : α} (f : α → β)
    (h : l[i]? = some a) (hf : f b = f a) : (l.set i b).map f = l.map f := by
  obtain ⟨hlt, rfl⟩ := List.getElem?_eq_some_iff.mp h
  have hlt' : i < (l.map f).length := by rwa [List.length_map]
  have hself := List.set_getElem_self hlt'
  rw [List.getElem_map] at hself
  rw [List.map_set, hf, hself]

/-- An element of a list with one more at its end is the new one or an old one. -/
theorem getElem?_snoc_cases {l : List α} {j : Nat} {a b : α} (h : (l ++ [a])[j]? = some b) :
    (j = l.length ∧ b = a) ∨ l[j]? = some b := by
  rcases Nat.lt_trichotomy j l.length with hlt | rfl | hgt
  · rw [List.getElem?_append_left hlt] at h
    exact .inr h
  · rw [List.getElem?_concat_length] at h
    exact .inl ⟨rfl, (Option.some.inj h).symm⟩
  · rw [List.getElem?_eq_none (by rw [List.length_append, List.length_singleton]; omega)] at h
    cases h

/-- Overwriting an element without a property adds the new one, where it has it. -/
theorem exists_mem_set {l : List α} {i : Nat} {p : α → Prop} (hlt : i < l.length)
    (hnot : ¬ p l[i]) (b : α) : (∃ a ∈ l.set i b, p a) ↔ (∃ a ∈ l, p a) ∨ p b := by
  constructor
  · intro h
    obtain ⟨a, hmem, ha⟩ := h
    cases List.mem_or_eq_of_mem_set hmem with
    | inl hold => exact .inl ⟨a, hold, ha⟩
    | inr heq => exact .inr (heq ▸ ha)
  · intro h
    cases h with
    | inl hold =>
      obtain ⟨a, hmem, ha⟩ := hold
      obtain ⟨j, hj, rfl⟩ := List.mem_iff_getElem.mp hmem
      have hne : i ≠ j := by
        intro heq
        subst heq
        exact hnot ha
      have hj' : j < (l.set i b).length := by rwa [List.length_set]
      refine ⟨(l.set i b)[j], List.getElem_mem hj', ?_⟩
      rwa [List.getElem_set_of_ne hne]
    | inr hb => exact ⟨b, List.mem_set hlt b, hb⟩

/-- Lowering one of the numbers lowers the sum. -/
theorem sum_set_lt {l : List Nat} {i a b : Nat} (h : l[i]? = some a) (hlt : b < a) :
    (l.set i b).sum < l.sum := by
  induction l generalizing i with
  | nil => cases h
  | cons x l ih =>
    cases i with
    | zero =>
      cases h
      rw [List.set_cons_zero, List.sum_cons, List.sum_cons]
      omega
    | succ i =>
      have hrest := ih h
      rw [List.set_cons_succ, List.sum_cons, List.sum_cons]
      omega

end Pool
