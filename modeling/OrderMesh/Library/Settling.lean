import Mathlib.Logic.Hydra
import OrderMesh.Library.Pool
import OrderMesh.Library.Transition

namespace Pool

variable {α : Type*} {r : α → α → Prop}

/-- One thing gives way to lesser ones. -/
inductive Consumed (r : α → α → Prop) (l : List α) : List α → Prop
  | replaced {i : Nat} {a : α} {new : List α} (h : l[i]? = some a) (hnew : ∀ b ∈ new, r b a) :
      Consumed r l (replace l i new)

/-- As a multiset the pool makes a move of the hydra game. -/
theorem Consumed.cutExpand {l l' : List α} (h : Consumed r l l') :
    Relation.CutExpand r (l' : Multiset α) (l : Multiset α) := by
  cases h with
  | @replaced i a new ha hnew =>
    refine ⟨(new : Multiset α), a, hnew, ?_⟩
    obtain ⟨hlt, rfl⟩ := List.getElem?_eq_some_iff.mp ha
    have hperm := List.getElem_cons_eraseIdx_perm hlt
    rw [← Multiset.coe_eq_coe.mpr hperm, replace, ← Multiset.coe_add, ← Multiset.cons_coe,
      ← Multiset.singleton_add, add_comm, add_assoc]

theorem wellFounded_consumed (hr : WellFounded r) :
    WellFounded fun l' l : List α => Consumed r l l' := by
  have hpools := InvImage.wf (fun l : List α => (l : Multiset α)) hr.cutExpand
  exact Subrelation.wf (fun h => h.cutExpand) hpools

end Pool

namespace Transition

variable {σ α : Type*} {step : σ → α → Option σ} {s : σ}

/-- No run from here goes on for ever. -/
def Settles (step : σ → α → Option σ) (s : σ) : Prop :=
  ∀ run : Nat → σ, run 0 = s → ∃ n, ∀ a, step (run n) a ≠ some (run (n + 1))

/-- Nothing that meets `p` can be done any more. -/
def Idle (step : σ → α → Option σ) (p : α → Prop) (s : σ) : Prop := ∀ a, p a → step s a = none

variable {r : σ → σ → Prop} (I : σ → Prop)

/-- A system settles if its steps go down a well-founded relation. -/
theorem settles_of_decreasing (hr : WellFounded r)
    (hstep : ∀ s a t, I s → step s a = some t → I t ∧ r t s) (hs : I s) : Settles step s := by
  induction s using hr.induction with
  | _ s ih =>
    intro run hrun
    by_cases hmoves : ∃ a, step (run 0) a = some (run 1)
    · obtain ⟨a, ha⟩ := hmoves
      obtain ⟨hnext, hlt⟩ := hstep (run 0) a (run 1) (hrun ▸ hs) ha
      obtain ⟨n, hn⟩ := ih (run 1) (hrun ▸ hlt) hnext (fun n => run (n + 1)) rfl
      exact ⟨n + 1, hn⟩
    · exact ⟨0, fun a ha => hmoves ⟨a, ha⟩⟩

/-- Labels of a kind can be fired until none of them is left. -/
theorem exists_idle (hr : WellFounded r)
    (hstep : ∀ s a t, I s → step s a = some t → I t ∧ r t s) (p : α → Prop) (hs : I s) :
    ∃ as t, (∀ a ∈ as, p a) ∧ exec step s as = some t ∧ I t ∧ Idle step p t := by
  induction s using hr.induction with
  | _ s ih =>
    by_cases hidle : Idle step p s
    · exact ⟨[], s, by simp, rfl, hs, hidle⟩
    · simp only [Idle, not_forall] at hidle
      obtain ⟨a, ha, hmoves⟩ := hidle
      obtain ⟨t, ht⟩ := Option.ne_none_iff_exists'.mp hmoves
      obtain ⟨hnext, hlt⟩ := hstep s a t hs ht
      obtain ⟨as, u, has, hrun, hu, hrest⟩ := ih t hlt hnext
      refine ⟨a :: as, u, ?_, exec_cons_eq_some.mpr ⟨t, ht, hrun⟩, hu, hrest⟩
      intro b hb
      rcases List.mem_cons.mp hb with rfl | hb
      · exact ha
      · exact has b hb

/-- The steps that meet a condition. -/
def restrict (step : σ → α → Option σ) (guard : σ → α → Prop) [∀ s a, Decidable (guard s a)]
    (s : σ) (a : α) : Option σ :=
  if guard s a then step s a else none

theorem restrict_eq_some {guard : σ → α → Prop} [∀ s a, Decidable (guard s a)] {a : α} {t : σ} :
    restrict step guard s a = some t ↔ guard s a ∧ step s a = some t := by
  unfold restrict
  split_ifs with hguard
  · simp [hguard]
  · simp [hguard]

theorem restrict_eq_none {guard : σ → α → Prop} [∀ s a, Decidable (guard s a)] {a : α}
    (hguard : guard s a) : restrict step guard s a = none ↔ step s a = none := by
  simp [restrict, hguard]

end Transition
