import Mathlib.Data.List.Nodup

structure SerialTable (ρ : Type*) where
  rows : List (Int × ρ)
  next : Int
  bounded : ∀ r ∈ rows, r.1 < next
  nodup : (rows.map Prod.fst).Nodup

namespace SerialTable

variable {ρ : Type*}

theorem ext_rows {t u : SerialTable ρ} (hr : t.rows = u.rows) (hn : t.next = u.next) : t = u := by
  cases t; cases u; cases hr; cases hn; rfl

instance [DecidableEq ρ] : DecidableEq (SerialTable ρ) := fun t u =>
  decidable_of_iff (t.rows = u.rows ∧ t.next = u.next)
    ⟨fun h => ext_rows h.1 h.2, fun h => h ▸ ⟨rfl, rfl⟩⟩

/-- The first key handed out is 1. -/
def empty : SerialTable ρ := ⟨[], 1, by simp, List.nodup_nil⟩

@[simp] theorem rows_empty : (empty : SerialTable ρ).rows = [] := rfl

/-- Append a row under the next key. -/
def insert (t : SerialTable ρ) (r : ρ) : SerialTable ρ where
  rows := t.rows ++ [(t.next, r)]
  next := t.next + 1
  bounded := by
    intro x hx
    rcases List.mem_append.mp hx with h | h
    · exact Int.lt_trans (t.bounded x h) (Int.lt_succ t.next)
    · rw [List.mem_singleton.mp h]; exact Int.lt_succ t.next
  nodup := by
    rw [List.map_append]
    refine List.nodup_append.mpr ⟨t.nodup, List.nodup_singleton _, ?_⟩
    intro a ha b hb
    obtain ⟨x, hx, rfl⟩ := List.mem_map.mp ha
    rw [List.mem_singleton.mp hb]
    exact Int.ne_of_lt (t.bounded x hx)

/-- Hand out the next key; its row may come later, or never. -/
def draw (t : SerialTable ρ) : SerialTable ρ where
  rows := t.rows
  next := t.next + 1
  bounded := fun r hr => Int.lt_trans (t.bounded r hr) (Int.lt_succ t.next)
  nodup := t.nodup

/-- The key was handed out and has no row. -/
def Free (t : SerialTable ρ) (id : Int) : Prop := id < t.next ∧ id ∉ t.rows.map Prod.fst

instance (t : SerialTable ρ) (id : Int) : Decidable (t.Free id) :=
  inferInstanceAs (Decidable (id < t.next ∧ id ∉ t.rows.map Prod.fst))

/-- Append a row under a key that was handed out before. -/
def place (t : SerialTable ρ) (id : Int) (r : ρ) (hfree : t.Free id) : SerialTable ρ where
  rows := t.rows ++ [(id, r)]
  next := t.next
  bounded := by
    intro x hx
    rcases List.mem_append.mp hx with h | h
    · exact t.bounded x h
    · rw [List.mem_singleton.mp h]
      exact hfree.1
  nodup := by
    rw [List.map_append]
    refine List.nodup_append.mpr ⟨t.nodup, List.nodup_singleton _, ?_⟩
    rintro a ha b hb rfl
    rw [List.mem_singleton.mp hb] at ha
    exact hfree.2 ha

def insertAll (t : SerialTable ρ) (rs : List ρ) : SerialTable ρ := rs.foldl insert t

/-- Delete the rows with the given keys; a key without a row deletes nothing. -/
def deleteIds (t : SerialTable ρ) (ids : List Int) : SerialTable ρ where
  rows := t.rows.filter fun r => r.1 ∉ ids
  next := t.next
  bounded := fun r hr => t.bounded r (List.mem_filter.mp hr).1
  nodup := (List.filter_sublist.map Prod.fst).nodup t.nodup

/-- Apply `f` to the row with key `id`, if there is one. -/
def modify (t : SerialTable ρ) (id : Int) (f : ρ → ρ) : SerialTable ρ where
  rows := t.rows.map fun r => if r.1 = id then (r.1, f r.2) else r
  next := t.next
  bounded := by
    intro r hr
    obtain ⟨x, hx, rfl⟩ := List.mem_map.mp hr
    by_cases h : x.1 = id <;> simpa [h] using t.bounded x hx
  nodup := by
    have h : (Prod.fst ∘ fun r : Int × ρ => if r.1 = id then (r.1, f r.2) else r) = Prod.fst := by
      funext r
      by_cases hr : r.1 = id <;> simp [hr]
    rw [List.map_map, h]
    exact t.nodup

/-- Apply `f` to every row. -/
def updateAll (t : SerialTable ρ) (f : ρ → ρ) : SerialTable ρ where
  rows := t.rows.map fun r => (r.1, f r.2)
  next := t.next
  bounded := by
    intro r hr
    obtain ⟨x, hx, rfl⟩ := List.mem_map.mp hr
    exact t.bounded x hx
  nodup := by
    rw [List.map_map]
    exact t.nodup

def get? (t : SerialTable ρ) (id : Int) : Option ρ := t.rows.lookup id

/-- The rows whose content passes `p`, with their keys. -/
def select (t : SerialTable ρ) (p : ρ → Bool) : List (Int × ρ) := t.rows.filter fun r => p r.2

@[simp] theorem rows_insert (t : SerialTable ρ) (r : ρ) :
    (t.insert r).rows = t.rows ++ [(t.next, r)] := rfl

theorem free_draw (t : SerialTable ρ) : t.draw.Free t.next := by
  refine ⟨Int.lt_succ t.next, fun hmem => ?_⟩
  obtain ⟨r, hr, heq⟩ := List.mem_map.mp hmem
  exact Int.ne_of_lt (t.bounded r hr) heq

/-- An insert draws a key and places its row. -/
theorem place_draw (t : SerialTable ρ) (r : ρ) :
    t.draw.place t.next r t.free_draw = t.insert r := rfl

@[simp] theorem insertAll_nil (t : SerialTable ρ) : t.insertAll [] = t := rfl

theorem get?_modify (t : SerialTable ρ) (id j : Int) (f : ρ → ρ) :
    (t.modify id f).get? j = if j = id then (t.get? j).map f else t.get? j := by
  change (t.rows.map _).lookup j = if j = id then (t.rows.lookup j).map f else t.rows.lookup j
  induction t.rows with
  | nil => simp
  | cons r rs ih =>
    obtain ⟨a, b⟩ := r
    by_cases ha : a = id
    · subst ha
      by_cases hj : j = a
      · simp [hj]
      · simp [hj, List.lookup_cons, beq_eq_false_iff_ne.mpr hj, ih]
    · by_cases hj : j = a
      · subst hj
        simp [ha]
      · simp [ha, List.lookup_cons, beq_eq_false_iff_ne.mpr hj, ih]

theorem mem_rows_of_get? {t : SerialTable ρ} {id : Int} {r : ρ} (h : t.get? id = some r) :
    (id, r) ∈ t.rows := by
  obtain ⟨pre, post, heq, -⟩ := List.lookup_eq_some_iff.mp h
  rw [heq]
  simp

theorem get?_next (t : SerialTable ρ) : t.get? t.next = none := by
  apply List.lookup_eq_none_iff.mpr
  intro x hx
  have hne : t.next ≠ x.1 := by
    have hlt := t.bounded x hx
    omega
  simpa using hne

/-- The next key has no row, so an insert changes no other lookup. -/
theorem get?_insert (t : SerialTable ρ) (r : ρ) (j : Int) :
    (t.insert r).get? j = if j = t.next then some r else t.get? j := by
  have hfresh : t.rows.lookup t.next = none := t.get?_next
  change (t.rows ++ [(t.next, r)]).lookup j = _
  rw [List.lookup_append]
  by_cases hj : j = t.next
  · subst hj
    simp [hfresh]
  · simp [hj, List.lookup_cons, beq_eq_false_iff_ne.mpr hj, get?]

theorem get?_insert_of_some {t : SerialTable ρ} {j : Int} {row : ρ} (h : t.get? j = some row)
    (new : ρ) : (t.insert new).get? j = some row := by
  have hne : j ≠ t.next := by
    rintro rfl
    rw [t.get?_next] at h
    cases h
  rw [get?_insert, if_neg hne, h]

theorem insertAll_cons (t : SerialTable ρ) (r : ρ) (rs : List ρ) :
    t.insertAll (r :: rs) = (t.insert r).insertAll rs := rfl

theorem insertAll_snoc (t : SerialTable ρ) (rs : List ρ) (r : ρ) :
    t.insertAll (rs ++ [r]) = (t.insertAll rs).insert r := List.foldl_append

theorem updateAll_insertAll (t : SerialTable ρ) (rs : List ρ) (f : ρ → ρ) :
    (t.insertAll rs).updateAll f = (t.updateAll f).insertAll (rs.map f) := by
  induction rs generalizing t with
  | nil => rfl
  | cons r rs ih =>
    have hone : (t.insert r).updateAll f = (t.updateAll f).insert (f r) :=
      ext_rows (by simp [updateAll, insert]) rfl
    rw [insertAll_cons, ih, hone, List.map_cons, insertAll_cons]

theorem updateAll_eq_self {t : SerialTable ρ} {f : ρ → ρ} (h : ∀ r ∈ t.rows, f r.2 = r.2) :
    t.updateAll f = t := by
  refine ext_rows ?_ rfl
  have hmap : t.rows.map (fun r => (r.1, f r.2)) = t.rows.map id :=
    List.map_congr_left fun r hr => by rw [h r hr, id]
  exact hmap.trans (List.map_id _)

/-- Old rows stay in front; new ones get the following keys. -/
theorem rows_insertAll (t : SerialTable ρ) (rs : List ρ) :
    (t.insertAll rs).rows = t.rows ++ rs.mapIdx fun i r => (t.next + i, r) := by
  induction rs generalizing t with
  | nil => simp
  | cons r rs ih =>
    rw [insertAll_cons, ih, rows_insert, List.append_assoc, List.mapIdx_cons]
    simp [insert, Int.add_assoc, Int.add_comm 1]

theorem map_snd_rows_insertAll (t : SerialTable ρ) (rs : List ρ) :
    (t.insertAll rs).rows.map Prod.snd = t.rows.map Prod.snd ++ rs := by
  induction rs generalizing t with
  | nil => simp
  | cons r rs ih => simp [insertAll_cons, ih]

theorem select_insertAll (t : SerialTable ρ) (rs : List ρ) (p : ρ → Bool) :
    ((t.insertAll rs).select p).map Prod.snd = (t.select p).map Prod.snd ++ rs.filter p := by
  induction rs generalizing t with
  | nil => simp
  | cons r rs ih =>
    rw [insertAll_cons, ih]
    by_cases h : p r <;> simp [select, insert, List.filter_append, h]

theorem select_insertAll_of_none (t : SerialTable ρ) (rs : List ρ) (p : ρ → Bool)
    (h : ∀ r ∈ rs, p r = false) : (t.insertAll rs).select p = t.select p := by
  induction rs generalizing t with
  | nil => rfl
  | cons r rs ih =>
    rw [insertAll_cons, ih _ (fun x hx => h x (List.mem_cons_of_mem _ hx))]
    simp [select, insert, List.filter_append, h r List.mem_cons_self]

theorem mem_rows_unique (t : SerialTable ρ) {a b : Int × ρ} (ha : a ∈ t.rows) (hb : b ∈ t.rows)
    (h : a.1 = b.1) : a = b :=
  List.inj_on_of_nodup_map t.nodup ha hb h

theorem get?_eq_some_iff (t : SerialTable ρ) {id : Int} {r : ρ} :
    t.get? id = some r ↔ (id, r) ∈ t.rows := by
  refine ⟨mem_rows_of_get?, fun hmem => ?_⟩
  have hsome : (t.get? id).isSome := List.lookup_isSome_iff.mpr ⟨(id, r), hmem, by simp⟩
  obtain ⟨r', hget⟩ := Option.isSome_iff_exists.mp hsome
  cases t.mem_rows_unique (mem_rows_of_get? hget) hmem rfl
  exact hget

/-- The ids were handed out before, and the rows they still have pass `p`. -/
def Names (t : SerialTable ρ) (p : ρ → Bool) (ids : List Int) : Prop :=
  ∀ id ∈ ids, id < t.next ∧ ∀ r ∈ t.rows, r.1 = id → p r.2 = true

theorem names_select (t : SerialTable ρ) (p : ρ → Bool) :
    t.Names p ((t.select p).map Prod.fst) := by
  intro id hid
  obtain ⟨x, hx, rfl⟩ := List.mem_map.mp hid
  obtain ⟨hmem, hp⟩ := List.mem_filter.mp hx
  refine ⟨t.bounded x hmem, fun r hr heq => ?_⟩
  rw [t.mem_rows_unique hr hmem heq]
  exact hp

theorem next_le_insertAll (t : SerialTable ρ) (rs : List ρ) : t.next ≤ (t.insertAll rs).next := by
  induction rs generalizing t with
  | nil => exact Int.le_refl _
  | cons r rs ih =>
    have hnext : (t.insert r).next = t.next + 1 := rfl
    have hle := ih (t.insert r)
    rw [insertAll_cons]
    omega

/-- New rows get new ids. -/
theorem Names.insertAll {t : SerialTable ρ} {p : ρ → Bool} {ids : List Int} (h : t.Names p ids)
    (rs : List ρ) : (t.insertAll rs).Names p ids := by
  intro id hid
  obtain ⟨hlt, hrows⟩ := h id hid
  refine ⟨Int.lt_of_lt_of_le hlt (t.next_le_insertAll rs), fun r hr heq => ?_⟩
  rw [rows_insertAll] at hr
  rcases List.mem_append.mp hr with hold | hnew
  · exact hrows r hold heq
  · obtain ⟨i, hi, hri⟩ := List.mem_mapIdx.mp hnew
    have hfst : t.next + i = r.1 := congrArg Prod.fst hri
    omega

theorem Names.deleteIds {t : SerialTable ρ} {p : ρ → Bool} {ids : List Int} (h : t.Names p ids)
    (gone : List Int) : (t.deleteIds gone).Names p ids :=
  fun id hid => ⟨(h id hid).1, fun r hr => (h id hid).2 r (List.mem_filter.mp hr).1⟩

/-- Deleting every selected row leaves none of them. -/
theorem select_deleteIds_of_covers {t : SerialTable ρ} {p : ρ → Bool} {ids : List Int}
    (h : ∀ r ∈ t.select p, r.1 ∈ ids) : (t.deleteIds ids).select p = [] := by
  apply List.filter_eq_nil_iff.mpr
  intro r hr hp
  obtain ⟨hmem, hnot⟩ := List.mem_filter.mp hr
  exact of_decide_eq_true hnot (h r (List.mem_filter.mpr ⟨hmem, hp⟩))

theorem select_deleteIds_self (t : SerialTable ρ) (p : ρ → Bool) :
    (t.deleteIds ((t.select p).map Prod.fst)).select p = [] :=
  select_deleteIds_of_covers fun _ hr => List.mem_map_of_mem hr

/-- Deleting rows that pass `p` leaves a disjoint selection as it was. -/
theorem Names.select_deleteIds {t : SerialTable ρ} {p : ρ → Bool} {ids : List Int}
    (h : t.Names p ids) {q : ρ → Bool} (hpq : ∀ r, q r = true → p r = false) :
    (t.deleteIds ids).select q = t.select q := by
  unfold select SerialTable.deleteIds
  simp only [List.filter_filter]
  apply List.filter_congr
  intro r hr
  by_cases hq : q r.2 = true
  · have hnot : r.1 ∉ ids := by
      intro hmem
      have hp := (h r.1 hmem).2 r hr rfl
      rw [hpq _ hq] at hp
      cases hp
    simp [hq, hnot]
  · simp [Bool.not_eq_true _ ▸ hq]

theorem select_deleteIds_of_disjoint (t : SerialTable ρ) (p q : ρ → Bool)
    (hpq : ∀ r, q r = true → p r = false) :
    (t.deleteIds ((t.select p).map Prod.fst)).select q = t.select q :=
  (t.names_select p).select_deleteIds hpq

theorem select_deleteIds_eq_nil {t : SerialTable ρ} {p : ρ → Bool} (h : t.select p = [])
    (ids : List Int) : (t.deleteIds ids).select p = [] := by
  apply List.filter_eq_nil_iff.mpr
  intro r hr
  exact List.filter_eq_nil_iff.mp h r (List.mem_filter.mp hr).1

/-- Deleting rows that are already gone deletes nothing. -/
theorem deleteIds_deleteIds (t : SerialTable ρ) (ids : List Int) :
    (t.deleteIds ids).deleteIds ids = t.deleteIds ids :=
  ext_rows (by simp [deleteIds, List.filter_filter]) rfl

end SerialTable
