import Mathlib.Data.List.Induction
import Mathlib.Data.List.Nodup

structure Dict (κ ν : Type*) where
  entries : List (κ × ν)
  nodup : (entries.map Prod.fst).Nodup

namespace Dict

variable {κ ν : Type*}

theorem ext_entries {d e : Dict κ ν} (h : d.entries = e.entries) : d = e := by
  cases d; cases e; cases h; rfl

instance [DecidableEq κ] [DecidableEq ν] : DecidableEq (Dict κ ν) := fun d e =>
  decidable_of_iff (d.entries = e.entries) ⟨ext_entries, congrArg entries⟩

def empty : Dict κ ν := ⟨[], List.nodup_nil⟩

def keys (d : Dict κ ν) : List κ := d.entries.map Prod.fst

@[simp] theorem entries_empty : (empty : Dict κ ν).entries = [] := rfl

@[simp] theorem keys_empty : (empty : Dict κ ν).keys = [] := rfl

def filterKeys (p : κ → Bool) (d : Dict κ ν) : Dict κ ν :=
  ⟨d.entries.filter fun e => p e.1,
    (List.filter_sublist.map Prod.fst).nodup d.nodup⟩

variable [DecidableEq κ]

def delete (d : Dict κ ν) (k : κ) : Dict κ ν := d.filterKeys fun j => j ≠ k

def get? (d : Dict κ ν) (k : κ) : Option ν := d.entries.lookup k

def getD (d : Dict κ ν) (k : κ) (default : ν) : ν := (d.get? k).getD default

/-- Overwrite the entry of `k` in place, or append a new one. -/
def setEntries (k : κ) (v : ν) : List (κ × ν) → List (κ × ν)
  | [] => [(k, v)]
  | e :: es => if e.1 = k then (k, v) :: es else e :: setEntries k v es

theorem keys_setEntries (k : κ) (v : ν) (l : List (κ × ν)) :
    (setEntries k v l).map Prod.fst =
      if k ∈ l.map Prod.fst then l.map Prod.fst else l.map Prod.fst ++ [k] := by
  induction l with
  | nil => rfl
  | cons e es ih =>
    by_cases he : e.1 = k
    · simp [setEntries, he]
    · simp only [setEntries, if_neg he, List.map_cons, ih, List.mem_cons, Ne.symm he, false_or]
      split_ifs <;> rfl

theorem nodup_setEntries (k : κ) (v : ν) (l : List (κ × ν)) (h : (l.map Prod.fst).Nodup) :
    ((setEntries k v l).map Prod.fst).Nodup := by
  rw [keys_setEntries]
  split_ifs with hk
  · exact h
  · exact List.nodup_append.mpr ⟨h, List.nodup_singleton k, by
      intro a ha b hb
      rw [List.mem_singleton.mp hb]
      exact fun heq => hk (heq ▸ ha)⟩

def set (d : Dict κ ν) (k : κ) (v : ν) : Dict κ ν :=
  ⟨setEntries k v d.entries, nodup_setEntries k v d.entries d.nodup⟩

/-- Apply `f` to the value of `k`; an absent key is left absent. -/
def modify (d : Dict κ ν) (k : κ) (f : ν → ν) : Dict κ ν :=
  ⟨d.entries.map fun e => if e.1 = k then (e.1, f e.2) else e, by
    have h : (Prod.fst ∘ fun e : κ × ν => if e.1 = k then (e.1, f e.2) else e) = Prod.fst := by
      funext e
      by_cases he : e.1 = k <;> simp [he]
    rw [List.map_map, h]
    exact d.nodup⟩

def update (d : Dict κ ν) (es : List (κ × ν)) : Dict κ ν :=
  es.foldl (fun d e => d.set e.1 e.2) d

/-- The dictionary of a list of pairs: the last value of a key wins, at its first place. -/
def ofList (es : List (κ × ν)) : Dict κ ν := empty.update es

@[simp] theorem get?_empty (k : κ) : (empty : Dict κ ν).get? k = none := rfl

theorem lookup_cons_ite (k a : κ) (b : ν) (l : List (κ × ν)) :
    ((a, b) :: l).lookup k = if k = a then some b else l.lookup k := by
  by_cases h : k = a
  · simp [h]
  · rw [List.lookup_cons, beq_eq_false_iff_ne.mpr h, if_neg h]

theorem getD_eq (d : Dict κ ν) (k : κ) (v : ν) : d.getD k v = (d.get? k).getD v := rfl

theorem lookup_setEntries (k j : κ) (v : ν) (l : List (κ × ν)) :
    (setEntries k v l).lookup j = if j = k then some v else l.lookup j := by
  induction l with
  | nil => rw [setEntries, lookup_cons_ite]
  | cons e es ih =>
    obtain ⟨a, b⟩ := e
    by_cases ha : a = k
    · subst ha
      simp only [setEntries, if_true, lookup_cons_ite]
      split_ifs <;> rfl
    · simp only [setEntries, if_neg ha, lookup_cons_ite, ih]
      split_ifs with hj hk
      · exact absurd (hj.symm.trans hk) ha
      all_goals rfl

@[simp] theorem get?_set (d : Dict κ ν) (k j : κ) (v : ν) :
    (d.set k v).get? j = if j = k then some v else d.get? j :=
  lookup_setEntries k j v d.entries

theorem keys_set (d : Dict κ ν) (k : κ) (v : ν) :
    (d.set k v).keys = if k ∈ d.keys then d.keys else d.keys ++ [k] :=
  keys_setEntries k v d.entries

theorem entries_set_of_notMem (d : Dict κ ν) (k : κ) (v : ν) (h : k ∉ d.keys) :
    (d.set k v).entries = d.entries ++ [(k, v)] := by
  obtain ⟨es, hes⟩ := d
  change setEntries k v es = es ++ [(k, v)]
  change k ∉ es.map Prod.fst at h
  clear hes
  induction es with
  | nil => rfl
  | cons e es ih =>
    simp only [List.map_cons, List.mem_cons, not_or] at h
    simp [setEntries, Ne.symm h.1, ih h.2]

/-- Overwriting a key keeps every entry in its place. -/
theorem entries_set_of_mem (d : Dict κ ν) (k : κ) (v : ν) (h : k ∈ d.keys) :
    (d.set k v).entries = d.entries.map fun e => if e.1 = k then (k, v) else e := by
  obtain ⟨es, hes⟩ := d
  change setEntries k v es = es.map fun e => if e.1 = k then (k, v) else e
  change k ∈ es.map Prod.fst at h
  induction es with
  | nil => cases h
  | cons e es ih =>
    obtain ⟨hfresh, hrest⟩ := List.nodup_cons.mp hes
    by_cases he : e.1 = k
    · have hothers : es.map (fun e => if e.1 = k then (k, v) else e) = es.map id := by
        refine List.map_congr_left fun x hx => if_neg fun heq => hfresh ?_
        rw [he, ← heq]
        exact List.mem_map_of_mem hx
      rw [setEntries, if_pos he, List.map_cons, if_pos he, hothers, List.map_id]
    · have htail : k ∈ es.map Prod.fst := (List.mem_cons.mp h).resolve_left (Ne.symm he)
      rw [setEntries, if_neg he, List.map_cons, if_neg he, ih hrest htail]

theorem mem_keys_iff (d : Dict κ ν) (k : κ) : k ∈ d.keys ↔ (d.get? k).isSome := by
  unfold keys get?
  rw [List.lookup_isSome_iff]
  simp only [List.mem_map, beq_iff_eq]
  exact ⟨fun ⟨e, he, hk⟩ => ⟨e, he, hk.symm⟩, fun ⟨e, he, hk⟩ => ⟨e, he, hk.symm⟩⟩

theorem get?_eq_none_iff (d : Dict κ ν) (k : κ) : d.get? k = none ↔ k ∉ d.keys := by
  rw [mem_keys_iff, Bool.not_eq_true, Option.isSome_eq_false_iff, Option.isNone_iff_eq_none]

theorem mem_keys_set (d : Dict κ ν) (k j : κ) (v : ν) :
    j ∈ (d.set k v).keys ↔ j ∈ d.keys ∨ j = k := by
  rw [mem_keys_iff, mem_keys_iff, get?_set]
  by_cases hj : j = k <;> simp [hj]

theorem lookup_eq_some_of_mem {l : List (κ × ν)} (hl : (l.map Prod.fst).Nodup) {k : κ} {v : ν}
    (h : (k, v) ∈ l) : l.lookup k = some v := by
  induction l with
  | nil => cases h
  | cons e es ih =>
    obtain ⟨a, b⟩ := e
    simp only [List.map_cons, List.nodup_cons] at hl
    rcases List.mem_cons.mp h with heq | hmem
    · cases heq; simp
    · have hne : k ≠ a := fun heq => hl.1 (heq ▸ List.mem_map_of_mem (f := Prod.fst) hmem)
      rw [List.lookup_cons, beq_eq_false_iff_ne.mpr hne]
      exact ih hl.2 hmem

theorem mem_of_lookup_eq_some {l : List (κ × ν)} {k : κ} {v : ν} (h : l.lookup k = some v) :
    (k, v) ∈ l := by
  obtain ⟨l₁, l₂, heq, -⟩ := List.lookup_eq_some_iff.mp h
  exact heq ▸ List.mem_append_right _ List.mem_cons_self

theorem get?_eq_some_iff (d : Dict κ ν) (k : κ) (v : ν) :
    d.get? k = some v ↔ (k, v) ∈ d.entries :=
  ⟨mem_of_lookup_eq_some, lookup_eq_some_of_mem d.nodup⟩

theorem get?_modify (d : Dict κ ν) (k j : κ) (f : ν → ν) :
    (d.modify k f).get? j = if j = k then (d.get? j).map f else d.get? j := by
  change (d.entries.map _).lookup j =
    if j = k then (d.entries.lookup j).map f else d.entries.lookup j
  induction d.entries with
  | nil => simp
  | cons e es ih =>
    obtain ⟨a, b⟩ := e
    by_cases ha : a = k
    · subst ha
      simp only [List.map_cons, if_true, lookup_cons_ite, ih]
      split_ifs <;> rfl
    · simp only [List.map_cons, if_neg ha, lookup_cons_ite, ih]
      split_ifs with hk hj
      · exact absurd (hk.symm.trans hj) ha
      all_goals rfl

@[simp] theorem keys_modify (d : Dict κ ν) (k : κ) (f : ν → ν) : (d.modify k f).keys = d.keys := by
  unfold keys modify
  rw [List.map_map]
  congr 1
  funext e
  by_cases he : e.1 = k <;> simp [he]

theorem lookup_filter_key (p : κ → Bool) (l : List (κ × ν)) (k : κ) :
    (l.filter fun e => p e.1).lookup k = if p k then l.lookup k else none := by
  induction l with
  | nil => simp
  | cons e es ih =>
    obtain ⟨a, b⟩ := e
    by_cases hk : k = a
    · subst hk
      by_cases hp : p k <;> simp [hp, ih]
    · by_cases hp : p a <;> simp [hp, ih, lookup_cons_ite, hk]

theorem get?_filterKeys (d : Dict κ ν) (p : κ → Bool) (k : κ) :
    (d.filterKeys p).get? k = if p k then d.get? k else none :=
  lookup_filter_key p d.entries k

@[simp] theorem get?_delete (d : Dict κ ν) (k j : κ) :
    (d.delete k).get? j = if j = k then none else d.get? j := by
  unfold delete
  rw [get?_filterKeys]
  by_cases hj : j = k <;> simp [hj]

@[simp] theorem update_nil (d : Dict κ ν) : d.update [] = d := rfl

theorem update_cons (d : Dict κ ν) (e : κ × ν) (es : List (κ × ν)) :
    d.update (e :: es) = (d.set e.1 e.2).update es := rfl

theorem update_append (d : Dict κ ν) (es fs : List (κ × ν)) :
    d.update (es ++ fs) = (d.update es).update fs := List.foldl_append

theorem get?_update_of_notMem (d : Dict κ ν) (es : List (κ × ν)) (k : κ)
    (h : k ∉ es.map Prod.fst) : (d.update es).get? k = d.get? k := by
  induction es generalizing d with
  | nil => rfl
  | cons e es ih =>
    simp only [List.map_cons, List.mem_cons, not_or] at h
    rw [update_cons, ih _ h.2, get?_set, if_neg h.1]

theorem get?_update (d e : Dict κ ν) (k : κ) :
    (d.update e.entries).get? k = (e.get? k).or (d.get? k) := by
  obtain ⟨es, hes⟩ := e
  change (d.update es).get? k = (es.lookup k).or (d.get? k)
  induction es generalizing d with
  | nil => rfl
  | cons e es ih =>
    obtain ⟨a, b⟩ := e
    simp only [List.map_cons, List.nodup_cons] at hes
    by_cases hk : k = a
    · subst hk
      rw [update_cons, get?_update_of_notMem _ _ _ hes.1]
      simp
    · rw [update_cons, ih _ hes.2]
      rw [get?_set, if_neg hk, lookup_cons_ite, if_neg hk]

theorem keys_update_of_subset (d : Dict κ ν) (es : List (κ × ν))
    (h : ∀ k ∈ es.map Prod.fst, k ∈ d.keys) : (d.update es).keys = d.keys := by
  induction es generalizing d with
  | nil => rfl
  | cons e es ih =>
    have hset : (d.set e.1 e.2).keys = d.keys := by
      rw [keys_set, if_pos (h e.1 (by simp))]
    rw [update_cons, ih _ (fun k hk => hset ▸ h k (List.mem_cons_of_mem _ hk)), hset]

theorem subset_keys_update (d : Dict κ ν) (es : List (κ × ν)) : d.keys ⊆ (d.update es).keys := by
  induction es generalizing d with
  | nil => exact fun _ h => h
  | cons e es ih =>
    intro k hk
    apply ih
    rw [keys_set]
    split_ifs
    · exact hk
    · exact List.mem_append_left _ hk

theorem get?_ofList (es : List (κ × ν)) (k : κ) :
    (ofList es).get? k = es.reverse.lookup k := by
  unfold ofList
  induction es using List.reverseRecOn with
  | nil => rfl
  | append_singleton es e ih =>
    obtain ⟨a, b⟩ := e
    rw [update_append, List.reverse_append]
    change ((empty.update es).set a b).get? k = List.lookup k ((a, b) :: es.reverse)
    rw [get?_set, lookup_cons_ite, ih]

theorem mem_of_mem_ofList {es : List (κ × ν)} {e : κ × ν} (h : e ∈ (ofList es).entries) :
    e ∈ es := by
  have hget := (get?_eq_some_iff (ofList es) e.1 e.2).mpr h
  rw [get?_ofList] at hget
  exact List.mem_reverse.mp (mem_of_lookup_eq_some hget)

theorem mem_keys_ofList (es : List (κ × ν)) (k : κ) :
    k ∈ (ofList es).keys ↔ k ∈ es.map Prod.fst := by
  rw [mem_keys_iff, get?_ofList, List.lookup_isSome_iff]
  simp only [List.mem_reverse, List.mem_map, beq_iff_eq]
  exact ⟨fun ⟨e, he, hk⟩ => ⟨e, he, hk.symm⟩, fun ⟨e, he, hk⟩ => ⟨e, he, hk.symm⟩⟩

theorem entries_eq_filterMap_keys (d : Dict κ ν) :
    d.entries = d.keys.filterMap fun k => (d.get? k).map fun v => (k, v) := by
  have h : ∀ e ∈ d.entries, ((d.get? e.1).map fun v => (e.1, v)) = some e := by
    intro e he
    rw [(d.get?_eq_some_iff e.1 e.2).mpr he]
    rfl
  rw [keys, List.filterMap_map, Function.comp_def, List.filterMap_congr h, List.filterMap_some]

/-- Two dictionaries with the same keys in the same order and the same lookups are equal. -/
theorem ext_get? {d e : Dict κ ν} (hk : d.keys = e.keys) (hg : ∀ k, d.get? k = e.get? k) :
    d = e := by
  apply ext_entries
  rw [entries_eq_filterMap_keys d, entries_eq_filterMap_keys e, hk]
  simp only [hg]

/-- Two dictionaries with the same lookups hold the same entries, in some order. -/
theorem entries_perm {d e : Dict κ ν} (h : ∀ k, d.get? k = e.get? k) :
    d.entries.Perm e.entries := by
  refine (List.perm_ext_iff_of_nodup d.nodup.of_map e.nodup.of_map).mpr fun x => ?_
  rw [← d.get?_eq_some_iff x.1 x.2, ← e.get?_eq_some_iff x.1 x.2, h]

/-- The last value that is set under a key stays. -/
theorem set_set (d : Dict κ ν) (k : κ) (v u : ν) : (d.set k v).set k u = d.set k u := by
  apply ext_get?
  · have hmem : k ∈ (d.set k v).keys := (d.mem_keys_set k k v).mpr (.inr rfl)
    rw [keys_set, if_pos hmem, keys_set, keys_set]
  · intro j
    by_cases hj : j = k
    · simp [hj]
    · simp [hj]

end Dict
