import OrderMesh.Library.Pool
import OrderMesh.Library.Transition

namespace Setup

variable {σ ι : Type}

/-- Declarations take effect for good; one that contradicts the state is refused. -/
structure Declarations (σ ι : Type) where
  apply : σ → ι → Option σ
  Done : σ → ι → Prop
  done_apply : ∀ s o t, apply s o = some t → Done t o
  done_mono : ∀ s o t, apply s o = some t → ∀ o', Done s o' → Done t o'

/-- What a process has still to declare; `none` when it does not run. -/
abbrev Process (ι : Type) := Option (List ι)

/-- A declaration that raises may have taken effect all the same, as `took` says. -/
inductive Act
  | boot (i : Nat)
  | perform (i : Nat)
  | fail (i : Nat) (took : Bool)
  | stop (i : Nat)

/-- The first declaration that a process has still to make, and those behind it. -/
def head? (processes : List (Process ι)) (i : Nat) : Option (ι × List ι) :=
  match processes[i]? with
  | some (some (o :: rest)) => some (o, rest)
  | _ => none

def step (d : Declarations σ ι) (programs : List (List ι)) (s : σ) (processes : List (Process ι)) :
    Act → Option (σ × List (Process ι))
  | .boot i =>
      match programs[i]?, processes[i]? with
      | some program, some none => some (s, processes.set i (some program))
      | _, _ => none
  | .perform i =>
      (head? processes i).bind fun r =>
        (d.apply s r.1).map fun t => (t, processes.set i (some r.2))
  | .fail i took =>
      (head? processes i).bind fun r =>
        (if took then d.apply s r.1 else some s).map fun t => (t, processes.set i none)
  | .stop i => some (s, processes.set i none)

/-- What a process has declared so far has taken effect. -/
structure Progress (d : Declarations σ ι) (programs : List (List ι)) (s : σ)
    (processes : List (Process ι)) : Prop where
  made : ∀ (i : Nat) (rest : List ι), processes[i]? = some (some rest) →
    ∃ made, programs[i]? = some (made ++ rest) ∧ ∀ o ∈ made, d.Done s o

variable {d : Declarations σ ι} {programs : List (List ι)} {s t : σ}
  {processes processes' : List (Process ι)}

theorem progress_start (s : σ) (n : Nat) :
    Progress d programs s (List.replicate n none) := by
  refine ⟨fun i rest h => ?_⟩
  have hmem := List.mem_of_getElem? h
  have heq := (List.mem_replicate.mp hmem).2
  cases heq

/-- Other changes of the state keep the progress if they keep what is declared. -/
theorem Progress.mono (h : Progress d programs s processes)
    (hmono : ∀ o, d.Done s o → d.Done t o) : Progress d programs t processes := by
  refine ⟨fun i rest hi => ?_⟩
  obtain ⟨made, hprogram, hmade⟩ := h.made i rest hi
  exact ⟨made, hprogram, fun o ho => hmono o (hmade o ho)⟩

theorem Progress.set (h : Progress d programs s processes) {i : Nat} {p : Process ι}
    (hp : ∀ rest, p = some rest →
      ∃ made, programs[i]? = some (made ++ rest) ∧ ∀ o ∈ made, d.Done s o) :
    Progress d programs s (processes.set i p) := by
  refine ⟨fun j rest hj => ?_⟩
  rcases Pool.getElem?_set_cases hj with hnew | hold
  · obtain ⟨rfl, heq⟩ := hnew
    exact hp rest heq.symm
  · exact h.made j rest hold.2

theorem head?_eq_some {i : Nat} {o : ι} {rest : List ι} (h : head? processes i = some (o, rest)) :
    processes[i]? = some (some (o :: rest)) := by
  unfold head? at h
  split at h
  · rename_i o' rest' hi
    cases h
    exact hi
  · cases h

/-- What a declaration finds: all declarations before it in its program. -/
theorem Progress.before (h : Progress d programs s processes) {i : Nat} {o : ι} {rest : List ι}
    (hhead : head? processes i = some (o, rest)) :
    ∃ made, programs[i]? = some (made ++ o :: rest) ∧ ∀ o' ∈ made, d.Done s o' :=
  h.made i (o :: rest) (head?_eq_some hhead)

/-- One step: what was declared stays, and progress is kept. -/
theorem step_progress {a : Act} (h : Progress d programs s processes)
    (hstep : step d programs s processes a = some (t, processes')) :
    Progress d programs t processes' ∧ (t = s ∨ ∃ i o rest, head? processes i = some (o, rest) ∧
      d.apply s o = some t) := by
  cases a with
  | boot i =>
    simp only [step] at hstep
    split at hstep
    · rename_i program hprogram hdown
      cases hstep
      refine ⟨h.set fun rest heq => ?_, .inl rfl⟩
      cases heq
      exact ⟨[], hprogram, by simp⟩
    · cases hstep
  | perform i =>
    obtain ⟨⟨o, rest⟩, hhead, happly⟩ := Option.bind_eq_some_iff.mp hstep
    obtain ⟨u, hu, heq⟩ := Option.map_eq_some_iff.mp happly
    cases heq
    obtain ⟨made, hprogram, hmade⟩ := h.before hhead
    have hmono := h.mono (d.done_mono s o t hu)
    refine ⟨hmono.set fun rest' heq => ?_, .inr ⟨i, o, rest, hhead, hu⟩⟩
    cases heq
    refine ⟨made ++ [o], by simpa using hprogram, fun o' ho' => ?_⟩
    rcases List.mem_append.mp ho' with hold | hnew
    · exact d.done_mono s o t hu o' (hmade o' hold)
    · rw [List.mem_singleton.mp hnew]
      exact d.done_apply s o t hu
  | fail i took =>
    obtain ⟨⟨o, rest⟩, hhead, happly⟩ := Option.bind_eq_some_iff.mp hstep
    obtain ⟨u, hu, heq⟩ := Option.map_eq_some_iff.mp happly
    cases heq
    split_ifs at hu with htook
    · refine ⟨(h.mono (d.done_mono s o t hu)).set fun rest' heq => ?_,
        .inr ⟨i, o, rest, hhead, hu⟩⟩
      cases heq
    · cases hu
      refine ⟨h.set fun rest' heq => ?_, .inl rfl⟩
      cases heq
  | stop i =>
    cases hstep
    refine ⟨h.set fun rest heq => ?_, .inl rfl⟩
    cases heq

/-- A process that is through has everything declared. -/
theorem Progress.through (h : Progress d programs s processes) {i : Nat} {program : List ι}
    (hprogram : programs[i]? = some program) (hi : processes[i]? = some (some [])) :
    ∀ o ∈ program, d.Done s o := by
  obtain ⟨made, hmade, hdone⟩ := h.made i [] hi
  rw [List.append_nil] at hmade
  cases hprogram.symm.trans hmade
  exact hdone

end Setup
