import Mathlib.Algebra.BigOperators.Ring.Finset
import Mathlib.Algebra.BigOperators.Intervals
import Mathlib.Data.Fintype.BigOperators

namespace Branching

section Load

variable {Q α : Type*} [Fintype Q]

/-- The total weight of the tasks in all queues. -/
def load (weight : α → Nat) (queues : Q → List α) : Nat := ∑ q, ((queues q).map weight).sum

theorem sum_eraseIdx {l : List α} {i : Nat} {a : α} (h : l[i]? = some a) (weight : α → Nat) :
    (l.map weight).sum = ((l.eraseIdx i).map weight).sum + weight a := by
  induction l generalizing i with
  | nil => cases h
  | cons b l ih =>
    cases i with
    | zero =>
      cases h
      simp [Nat.add_comm]
    | succ i =>
      have hrest := ih h
      simp only [List.map_cons, List.sum_cons, List.eraseIdx_cons_succ]
      omega

/-- Taking a task out of a queue takes its weight away. -/
theorem load_take [DecidableEq Q] {queues : Q → List α} {q : Q} {i : Nat} {a : α}
    (h : (queues q)[i]? = some a) (weight : α → Nat) :
    load weight queues =
      load weight (Function.update queues q ((queues q).eraseIdx i)) + weight a := by
  have hothers : ∀ x ∈ Finset.univ.erase q,
      ((Function.update queues q ((queues q).eraseIdx i) x).map weight).sum =
        ((queues x).map weight).sum := by
    intro x hx
    rw [Function.update_of_ne (Finset.ne_of_mem_erase hx)]
  unfold load
  rw [← Finset.add_sum_erase _ _ (Finset.mem_univ q),
    ← Finset.add_sum_erase Finset.univ (fun x => _) (Finset.mem_univ q),
    Finset.sum_congr rfl hothers, Function.update_self, sum_eraseIdx h weight]
  omega

/-- A task that goes to some of the queues adds its weight once for each. -/
theorem load_append (queues : Q → List α) (p : Q → Prop) [DecidablePred p] (a : α)
    (weight : α → Nat) :
    load weight (fun q => queues q ++ if p q then [a] else []) =
      load weight queues + (Finset.univ.filter p).card * weight a := by
  have hone : ∀ q, ((queues q ++ if p q then [a] else []).map weight).sum =
      ((queues q).map weight).sum + if p q then weight a else 0 := by
    intro q
    split_ifs <;> simp
  unfold load
  simp only [hone, Finset.sum_add_distrib, ← Finset.sum_filter, Finset.sum_const, nsmul_eq_mul,
    Nat.cast_id]

end Load

/-- Prices of an attempt, of giving up and of asking for one more try, with weights of
the tasks in a queue and of those asked for, by the attempts they have left. -/
structure Tariff (m : Nat) where
  attempt : Nat
  giveUp : Nat
  ask : Nat
  queued : Nat → Nat
  asked : Nat → Nat
  pays_retry : ∀ n, 0 < n → attempt + asked n ≤ queued (n + 1)
  pays_giveUp : attempt + giveUp ≤ queued 1
  pays_ask : ∀ n, ask + m * queued n ≤ asked n

theorem Tariff.pays_attempt {m : Nat} (t : Tariff m) {n : Nat} (hn : 0 < n) :
    t.attempt ≤ t.queued n := by
  cases n with
  | zero => cases hn
  | succ n =>
    cases n with
    | zero => exact Nat.le_of_add_right_le t.pays_giveUp
    | succ n => exact Nat.le_of_add_right_le (t.pays_retry (n + 1) (Nat.succ_pos n))

/-- `m + m ^ 2 + ... + m ^ n`. -/
def total (m n : Nat) : Nat := ∑ i ∈ Finset.Icc 1 n, m ^ i

theorem mul_sum_pow (m n : Nat) : m * ∑ i ∈ Finset.range n, m ^ i = total m n := by
  unfold total
  induction n with
  | zero => rfl
  | succ n ih =>
    rw [Finset.sum_range_succ, Nat.mul_add, ih, Finset.sum_Icc_succ_top (Nat.succ_pos n), pow_succ']

theorem sum_pow_succ (m n : Nat) : ∑ i ∈ Finset.range (n + 1), m ^ i = total m n + 1 := by
  rw [Finset.sum_range_succ', ← mul_sum_pow, Finset.mul_sum, pow_zero]
  simp only [pow_succ']

/-- Every attempt costs one. -/
def attempts (m : Nat) : Tariff m where
  attempt := 1
  giveUp := 0
  ask := 0
  queued n := ∑ i ∈ Finset.range n, m ^ i
  asked n := total m n
  pays_retry n _ := by rw [sum_pow_succ]; omega
  pays_giveUp := by simp
  pays_ask n := by rw [mul_sum_pow]; omega

/-- Every task that is given up costs one. -/
def givenUp (m : Nat) : Tariff m where
  attempt := 0
  giveUp := 1
  ask := 0
  queued n := m ^ (n - 1)
  asked n := m * m ^ (n - 1)
  pays_retry n hn := by
    obtain ⟨k, rfl⟩ : ∃ k, n = k + 1 := ⟨n - 1, by omega⟩
    rw [Nat.add_sub_cancel, Nat.add_sub_cancel, pow_succ', Nat.zero_add]
  pays_giveUp := by simp
  pays_ask n := by omega

/-- Every attempt and every demand for one more try costs one. -/
def steps (m : Nat) : Tariff m where
  attempt := 1
  giveUp := 0
  ask := 1
  queued n := 2 * ∑ i ∈ Finset.range n, m ^ i
  asked n := 2 * total m n + 1
  pays_retry n _ := by rw [sum_pow_succ]; omega
  pays_giveUp := by simp
  pays_ask n := by
    rw [← mul_sum_pow, Nat.mul_left_comm]
    omega

end Branching
