import Mathlib.Algebra.Group.Fin.Basic
import Mathlib.Data.Fintype.Lattice
import Mathlib.Data.Set.Finite.Basic
import Mathlib.Dynamics.PeriodicPts.Defs
import Mathlib.Logic.Relation

namespace WaitFor

open Relation Function

variable {T R : Type}

/-- The transaction asks for a row that the other one holds. -/
def Waits (asks holds : T → R → Prop) (t u : T) : Prop := ∃ r, asks t r ∧ holds u r

def Deadlocked (asks holds : T → R → Prop) : Prop := ∃ t, TransGen (Waits asks holds) t t

/-- At least two transactions, and for each of them a row that it wants and that the next
one wants, all of them different. -/
structure Circle (wants : T → R → Prop) {n : Nat} (t : Fin (n + 2) → T) (r : Fin (n + 2) → R) :
    Prop where
  members : Injective t
  rows : Injective r
  own : ∀ i, wants (t i) (r i)
  next : ∀ i, wants (t (i + 1)) (r i)

variable {asks holds wants : T → R → Prop}

theorem Circle.mono {wants wants' : T → R → Prop} {n : Nat} {t : Fin (n + 2) → T}
    {r : Fin (n + 2) → R} (h : Circle wants t r) (himp : ∀ t r, wants t r → wants' t r) :
    Circle wants' t r where
  members := h.members
  rows := h.rows
  own i := himp _ _ (h.own i)
  next i := himp _ _ (h.next i)

/-- A circle in which everybody holds one row and asks for the next one. -/
theorem deadlocked_of_circle {n : Nat} {t : Fin (n + 2) → T} {r : Fin (n + 2) → R}
    (hasks : ∀ i, asks (t i) (r i)) (hholds : ∀ i, holds (t (i + 1)) (r i)) :
    Deadlocked asks holds := by
  have hwaits (i : Fin (n + 2)) : Waits asks holds (t i) (t (i + 1)) := ⟨r i, hasks i, hholds i⟩
  have hchain (i : Fin (n + 2)) : ReflTransGen (Waits asks holds) (t 0) (t i) := by
    induction i using Fin.induction with
    | zero => exact .refl
    | succ i ih =>
      rw [← Fin.coeSucc_eq_succ]
      exact ih.tail (hwaits i.castSucc)
  have hlast := hwaits (Fin.last (n + 1))
  rw [Fin.last_add_one] at hlast
  exact ⟨t 0, TransGen.tail' (hchain (Fin.last (n + 1))) hlast⟩

section

variable (asks holds)

open Classical in
/-- Whom a transaction waits for; itself when it does not wait. -/
noncomputable def blocker (t : T) : T :=
  if h : ∃ u, Waits asks holds t u then h.choose else t

end

/-- One row is asked for at a time, and one transaction holds it. -/
structure Exclusive (asks holds : T → R → Prop) : Prop where
  asked : ∀ {t r s}, asks t r → asks t s → r = s
  held : ∀ {t u r}, holds t r → holds u r → t = u
  apart : ∀ {t r}, asks t r → ¬ holds t r

theorem Exclusive.blocker_eq (h : Exclusive asks holds) {t u : T} (hwaits : Waits asks holds t u) :
    blocker asks holds t = u := by
  have hex : ∃ u, Waits asks holds t u := ⟨u, hwaits⟩
  obtain ⟨r, hr, hur⟩ := hwaits
  obtain ⟨s, hs, hvs⟩ := hex.choose_spec
  have hrow := h.asked hs hr
  rw [blocker, dif_pos hex]
  exact h.held (hrow ▸ hvs) hur

/-- Along a chain everybody waits for the next one. -/
theorem Exclusive.chain (h : Exclusive asks holds) {t u : T}
    (hchain : TransGen (Waits asks holds) t u) :
    ∃ k, 0 < k ∧ (blocker asks holds)^[k] t = u ∧
      ∀ j < k, Waits asks holds ((blocker asks holds)^[j] t) ((blocker asks holds)^[j + 1] t) := by
  induction hchain with
  | single hwaits =>
    refine ⟨1, Nat.one_pos, h.blocker_eq hwaits, ?_⟩
    intro j hj
    obtain rfl : j = 0 := by omega
    rw [iterate_zero, id, zero_add, iterate_one, h.blocker_eq hwaits]
    exact hwaits
  | tail hchain hwaits ih =>
    obtain ⟨k, hk, hlast, hbefore⟩ := ih
    refine ⟨k + 1, Nat.succ_pos k, ?_, ?_⟩
    · rw [iterate_succ_apply', hlast, h.blocker_eq hwaits]
    · intro j hj
      by_cases hlt : j < k
      · exact hbefore j hlt
      · obtain rfl : j = k := by omega
        rw [iterate_succ_apply', hlast, h.blocker_eq hwaits]
        exact hwaits

theorem Exclusive.circle (h : Exclusive asks holds) (hasks : ∀ t r, asks t r → wants t r)
    (hholds : ∀ t r, holds t r → wants t r) (hdead : Deadlocked asks holds) :
    ∃ (n : Nat) (t : Fin (n + 2) → T) (r : Fin (n + 2) → R), Circle wants t r := by
  obtain ⟨t, hcycle⟩ := hdead
  obtain ⟨k, hk, hback, hwaits⟩ := h.chain hcycle
  have hperiodic : IsPeriodicPt (blocker asks holds) k t := hback
  have hpos := hperiodic.minimalPeriod_pos hk
  have hle := hperiodic.minimalPeriod_le hk
  have hne : minimalPeriod (blocker asks holds) t ≠ 1 := by
    intro hone
    have hself := iterate_minimalPeriod (f := blocker asks holds) (x := t)
    have hfirst := hwaits 0 hk
    rw [hone] at hself
    rw [zero_add, hself, iterate_zero, id] at hfirst
    obtain ⟨r, hr, hheld⟩ := hfirst
    exact h.apart hr hheld
  obtain ⟨n, hn⟩ : ∃ n, minimalPeriod (blocker asks holds) t = n + 2 :=
    ⟨minimalPeriod (blocker asks holds) t - 2, by omega⟩
  have hnext (i : Fin (n + 2)) : (blocker asks holds)^[(i + 1 : Fin (n + 2)).val] t =
      (blocker asks holds)^[i.val + 1] t := by
    have hmod := iterate_mod_minimalPeriod_eq (f := blocker asks holds) (x := t) (n := i.val + 1)
    rw [hn] at hmod
    rw [Fin.val_add, Fin.val_one, hmod]
  have hrow (i : Fin (n + 2)) : ∃ r, asks ((blocker asks holds)^[i.val] t) r ∧
      holds ((blocker asks holds)^[(i + 1 : Fin (n + 2)).val] t) r := by
    rw [hnext]
    exact hwaits i.val (by omega)
  choose r hr using hrow
  have hmembers : Injective fun i : Fin (n + 2) => (blocker asks holds)^[i.val] t := by
    intro i j heq
    have hi : i.val < minimalPeriod (blocker asks holds) t := by omega
    have hj : j.val < minimalPeriod (blocker asks holds) t := by omega
    exact Fin.val_injective (iterate_injOn_Iio_minimalPeriod hi hj heq)
  refine ⟨n, fun i => (blocker asks holds)^[i.val] t, r, hmembers, ?_,
    fun i => hasks _ _ (hr i).1, fun i => hholds _ _ (hr i).2⟩
  intro i j heq
  have hsame := hmembers (h.held (hr i).2 (heq ▸ (hr j).2))
  exact add_right_cancel hsame

/-- When everybody waits for somebody who is there, and for a row above all the rows it holds,
nobody is there. -/
theorem eq_nil_of_ascending [LinearOrder R] {ts : List T}
    (hwaits : ∀ t ∈ ts, ∃ u ∈ ts, Waits asks holds t u)
    (hascending : ∀ t ∈ ts, ∀ r s, holds t r → asks t s → r < s) : ts = [] := by
  by_contra hne
  obtain ⟨t₀, ht₀⟩ := List.exists_mem_of_ne_nil ts hne
  choose u hu r hasks hholds using hwaits
  have : Finite {t // t ∈ ts} := ts.finite_toSet
  have : Nonempty {t // t ∈ ts} := ⟨⟨t₀, ht₀⟩⟩
  obtain ⟨t, hgreatest⟩ := Finite.exists_max fun t : {t // t ∈ ts} => r t.1 t.2
  have hmem := hu t.1 t.2
  have hlt := hascending _ hmem _ _ (hholds t.1 t.2) (hasks _ hmem)
  exact absurd hlt (not_lt.mpr (hgreatest ⟨_, hmem⟩))

end WaitFor
