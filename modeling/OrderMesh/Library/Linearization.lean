import Mathlib.Data.List.Perm.Basic

namespace Linearization

variable {κ ρ τ : Type*}

/-- The calls run one at a time, in list order, with the listed results. -/
def Serial (apply : κ → τ → Option (ρ × τ)) : τ → List (κ × ρ) → τ → Prop
  | s, [], t => s = t
  | s, (c, r) :: es, t => ∃ u, apply c s = some (r, u) ∧ Serial apply u es t

variable {apply : κ → τ → Option (ρ × τ)}

theorem Serial.append {s t u : τ} {es fs : List (κ × ρ)} (h : Serial apply s es t)
    (hf : Serial apply t fs u) : Serial apply s (es ++ fs) u := by
  induction es generalizing s with
  | nil =>
    cases h
    exact hf
  | cons e es ih =>
    obtain ⟨v, hv, hrest⟩ := h
    exact ⟨v, hv, ih hrest⟩

theorem Serial.split {s u : τ} {es fs : List (κ × ρ)} (h : Serial apply s (es ++ fs) u) :
    ∃ t, Serial apply s es t ∧ Serial apply t fs u := by
  induction es generalizing s with
  | nil => exact ⟨s, rfl, h⟩
  | cons e es ih =>
    obtain ⟨v, hv, hrest⟩ := h
    obtain ⟨t, ht, hu⟩ := ih hrest
    exact ⟨t, ⟨v, hv, ht⟩, hu⟩

theorem Serial.snoc {s t u : τ} {es : List (κ × ρ)} {c : κ} {r : ρ}
    (h : Serial apply s es t) (hc : apply c t = some (r, u)) :
    Serial apply s (es ++ [(c, r)]) u := h.append ⟨u, hc, rfl⟩

/-- The promised results of a list of calls, without the calls that promised nothing yet. -/
def promised (calls : List (κ × Option ρ)) : List (κ × ρ) :=
  calls.filterMap fun c => c.2.map fun r => (c.1, r)

/-- The data is that of running the promised calls one at a time in some order. -/
def Linearized (apply : κ → τ → Option (ρ × τ)) (s : τ) (calls : List (κ × Option ρ)) (t : τ) :
    Prop :=
  ∃ es : List (κ × ρ), es.Perm (promised calls) ∧ Serial apply s es t

/-- Calls that have not started have promised nothing. -/
theorem Linearized.start (s : τ) (calls : List κ) :
    Linearized apply s (calls.map fun c => (c, none)) s :=
  ⟨[], by simp [promised], rfl⟩

theorem promised_set {calls : List (κ × Option ρ)} {i : Nat} {c : κ} (r : ρ)
    (hi : calls[i]? = some (c, none)) :
    (promised (calls.set i (c, some r))).Perm ((c, r) :: promised calls) := by
  induction calls generalizing i with
  | nil => simp at hi
  | cons d ds ih =>
    cases i with
    | zero =>
      cases Option.some.inj hi
      exact .refl _
    | succ i =>
      have htail := ih (i := i) (by simpa using hi)
      obtain ⟨e, o⟩ := d
      cases o with
      | none => exact htail
      | some q => exact (htail.cons (e, q)).trans (.swap _ _ _)

/-- A linearisation point: the call promises the result it has when run alone here. -/
theorem Linearized.point {s t u : τ} {calls : List (κ × Option ρ)} {i : Nat} {c : κ} {r : ρ}
    (h : Linearized apply s calls t) (hi : calls[i]? = some (c, none))
    (hc : apply c t = some (r, u)) : Linearized apply s (calls.set i (c, some r)) u := by
  obtain ⟨es, hperm, hserial⟩ := h
  refine ⟨es ++ [(c, r)], ?_, hserial.snoc hc⟩
  have hsnoc : (es ++ [(c, r)]).Perm ((c, r) :: es) := List.perm_append_singleton _ _
  exact (hsnoc.trans (hperm.cons _)).trans (promised_set r hi).symm

/-- When every call has promised, all of them ran in some order with the promised results. -/
theorem Linearized.serialisable {s t : τ} {calls : List (κ × ρ)}
    (h : Linearized apply s (calls.map fun c => (c.1, some c.2)) t) :
    ∃ es : List (κ × ρ), es.Perm calls ∧ Serial apply s es t := by
  obtain ⟨es, hperm, hserial⟩ := h
  have heq : promised (calls.map fun c => (c.1, some c.2)) = calls := by
    simp [promised, List.filterMap_map]
  exact ⟨es, heq ▸ hperm, hserial⟩

end Linearization
