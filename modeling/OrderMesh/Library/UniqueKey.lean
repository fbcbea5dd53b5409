import OrderMesh.Library.Pool
import OrderMesh.Library.SerialTable
import OrderMesh.Library.Transition

namespace UniqueKey

open Transition

variable {κ ρ ε : Type} [DecidableEq κ]

structure Table (key : ρ → κ) where
  serial : SerialTable ρ
  unique : ∀ r ∈ serial.rows, ∀ r' ∈ serial.rows, key r.2 = key r'.2 → r = r'

namespace Table

variable {key : ρ → κ}

def empty : Table key := ⟨.empty, fun _ hr => absurd hr List.not_mem_nil⟩

/-- The committed rows with a key. -/
def rowsOf (t : Table key) (k : κ) : List (Int × ρ) := t.serial.select fun row => key row = k

def taken (t : Table key) (k : κ) : Bool := t.serial.rows.any fun r => key r.2 = k

/-- Hand out the next id. -/
def draw (t : Table key) : Table key := ⟨t.serial.draw, t.unique⟩

theorem taken_iff (t : Table key) (k : κ) :
    t.taken k = true ↔ ∃ r ∈ t.serial.rows, key r.2 = k := by
  simp [taken]

def place (t : Table key) (id : Int) (row : ρ) (hfree : t.serial.Free id)
    (hkey : t.taken (key row) ≠ true) : Table key where
  serial := t.serial.place id row hfree
  unique := by
    have hother : ∀ r ∈ t.serial.rows, key r.2 ≠ key row := fun r hr heq =>
      hkey ((t.taken_iff _).mpr ⟨r, hr, heq⟩)
    intro r hr r' hr' heq
    rcases List.mem_append.mp hr with hold | hnew
    · rcases List.mem_append.mp hr' with hold' | hnew'
      · exact t.unique r hold r' hold' heq
      · rw [List.mem_singleton.mp hnew'] at heq
        exact absurd heq (hother r hold)
    · rcases List.mem_append.mp hr' with hold' | hnew'
      · rw [List.mem_singleton.mp hnew] at heq
        exact absurd heq.symm (hother r' hold')
      · rw [List.mem_singleton.mp hnew, List.mem_singleton.mp hnew']

theorem length_rowsOf_le (t : Table key) (k : κ) : (t.rowsOf k).length ≤ 1 := by
  have hnodup : (t.rowsOf k).Nodup := (List.Nodup.of_map Prod.fst t.serial.nodup).filter _
  match hrows : t.rowsOf k with
  | [] => exact Nat.zero_le 1
  | [_] => exact Nat.le_refl 1
  | r :: r' :: rest =>
    have hmem : ∀ x ∈ t.rowsOf k, x ∈ t.serial.rows ∧ key x.2 = k := by
      intro x hx
      obtain ⟨hrow, hkey⟩ := List.mem_filter.mp hx
      exact ⟨hrow, of_decide_eq_true hkey⟩
    obtain ⟨hr, hkey⟩ := hmem r (by simp [hrows])
    obtain ⟨hr', hkey'⟩ := hmem r' (by simp [hrows])
    rw [hrows, t.unique r hr r' hr' (hkey.trans hkey'.symm)] at hnodup
    simp at hnodup

theorem length_rowsOf_pos (t : Table key) (k : κ) :
    0 < (t.rowsOf k).length ↔ t.taken k = true := by
  rw [List.length_pos_iff_exists_mem, taken_iff]
  simp [rowsOf, SerialTable.select]

end Table

structure Endpoint (ρ κ ε : Type) where
  key : ρ → κ
  /-- The columns accept the values. -/
  storable : ρ → Bool
  /-- The answer when the lookup finds the key; `none` without a lookup. -/
  found : Option ε
  /-- The answer when the index is violated; `none` when the error is not handled. -/
  violated : Option ε

inductive Reply (ε : Type)
  | created (id : Int)
  | refused (e : ε)
  | unhandled

/-- How far a request has come: its lookup found nothing, or its row waits for the commit. -/
inductive Phase (ε : Type)
  | arrived
  | absent
  | inserted (id : Int)
  | replied (reply : Reply ε)

structure Request (ρ ε : Type) where
  row : ρ
  phase : Phase ε

inductive Move
  | lookup
  | insert
  | commit
  deriving DecidableEq

structure Act where
  request : Nat
  move : Move

structure Db (key : ρ → κ) (ε : Type) where
  table : Table key
  requests : List (Request ρ ε)

section

variable (e : Endpoint ρ κ ε)

/-- Insert the row, without a commit. -/
def Endpoint.flush (t : Table e.key) (row : ρ) : Phase ε × Table e.key :=
  if e.storable row then (.inserted t.serial.next, t.draw) else (.replied .unhandled, t)

def Endpoint.violation : Reply ε :=
  match e.violated with
  | some x => .refused x
  | none => .unhandled

def Endpoint.advance (t : Table e.key) (row : ρ) : Phase ε → Move → Option (Phase ε × Table e.key)
  | .arrived, .lookup =>
      e.found.map fun x => if t.taken (e.key row) then (.replied (.refused x), t) else (.absent, t)
  | .arrived, .insert => if e.found.isNone then some (e.flush t row) else none
  | .absent, .insert => some (e.flush t row)
  | .inserted id, .commit =>
      if h : t.taken (e.key row) then some (.replied e.violation, t)
      else if hfree : t.serial.Free id then
        some (.replied (.created id), t.place id row hfree h)
      else none
  | _, _ => none

def Endpoint.step (d : Db e.key ε) (a : Act) : Option (Db e.key ε) :=
  match d.requests[a.request]? with
  | none => none
  | some q =>
      (e.advance d.table q.row q.phase a.move).map fun r =>
        ⟨r.2, d.requests.set a.request ⟨q.row, r.1⟩⟩

/-- All requests have arrived. -/
def Endpoint.start (t : Table e.key) (rows : List ρ) : Db e.key ε :=
  ⟨t, rows.map fun row => ⟨row, .arrived⟩⟩

end

/-- Between its lookup, or without one its insert, and its commit. -/
def Phase.inFlight : Phase ε → Bool
  | .absent => true
  | .inserted _ => true
  | _ => false

def Phase.isCreated : Phase ε → Bool
  | .replied (.created _) => true
  | _ => false

def Phase.isReplied : Phase ε → Bool
  | .replied _ => true
  | _ => false

/-- The steps a request still has before it, at most. -/
def Phase.rest : Phase ε → Nat
  | .arrived => 3
  | .absent => 2
  | .inserted _ => 1
  | .replied _ => 0

def Db.rest {key : ρ → κ} (d : Db key ε) : Nat := (d.requests.map fun q => q.phase.rest).sum

/-- No request looks a key up while another one is in flight with it. -/
def Endpoint.Alone (e : Endpoint ρ κ ε) (d : Db e.key ε) (a : Act) : Prop :=
  a.move = .lookup → ∀ q ∈ d.requests[a.request]?, ∀ q' ∈ d.requests,
    q'.phase.inFlight = true → e.key q'.row ≠ e.key q.row

instance (e : Endpoint ρ κ ε) (d : Db e.key ε) (a : Act) : Decidable (e.Alone d a) :=
  inferInstanceAs (Decidable (_ → ∀ q ∈ d.requests[a.request]?, ∀ q' ∈ d.requests, _ → _))

/-- Every request has its answer. -/
def Db.Finished {key : ρ → κ} (d : Db key ε) : Prop := ∀ q ∈ d.requests, q.phase.isReplied = true

/-- The requests for a key that have created a row. -/
def Db.created {key : ρ → κ} (d : Db key ε) (k : κ) : Nat :=
  d.requests.countP fun q => key q.row = k ∧ q.phase.isCreated

/-- What the creation of rows promises; `t` is the table before the requests. One of the requests
for a new key creates its row, and the others leave none behind. -/
structure Law (key : ρ → κ) (conflict : ε → Prop) (t : Table key) (d : Db key ε) : Prop where
  handled : ∀ q ∈ d.requests, q.phase ≠ .replied .unhandled
  conflicts : ∀ q ∈ d.requests, ∀ x, q.phase = .replied (.refused x) → conflict x
  rows : ∀ r, r ∈ d.table.serial.rows ↔
    r ∈ t.serial.rows ∨ ∃ q ∈ d.requests, q.phase = .replied (.created r.1) ∧ q.row = r.2
  winner : d.Finished → ∀ q ∈ d.requests,
    d.created (key q.row) = (if t.taken (key q.row) then 0 else 1) ∧
      (d.table.rowsOf (key q.row)).length = 1

section

variable {e : Endpoint ρ κ ε}

theorem commit_taken {t : Table e.key} {row : ρ} (id : Int) (hkey : t.taken (e.key row) = true) :
    e.advance t row (.inserted id) .commit = some (.replied e.violation, t) :=
  dif_pos hkey

theorem commit_free {t : Table e.key} {row : ρ} {id : Int} (hkey : t.taken (e.key row) ≠ true)
    (hfree : t.serial.Free id) : e.advance t row (.inserted id) .commit =
      some (.replied (.created id), t.place id row hfree hkey) := by
  unfold Endpoint.advance
  dsimp only
  rw [dif_neg hkey, dif_pos hfree]

/-- Everything one step of a request can be. -/
inductive Advanced (e : Endpoint ρ κ ε) (t : Table e.key) (row : ρ) :
    Phase ε → Move → Phase ε → Table e.key → Prop
  | refused {x} (hfound : e.found = some x) (htaken : t.taken (e.key row) = true) :
      Advanced e t row .arrived .lookup (.replied (.refused x)) t
  | missed (hfound : e.found ≠ none) (hfree : t.taken (e.key row) = false) :
      Advanced e t row .arrived .lookup .absent t
  | flushed {ph} (hph : ph = .absent ∨ ph = .arrived ∧ e.found = none)
      (hstorable : e.storable row = true) :
      Advanced e t row ph .insert (.inserted t.serial.next) t.draw
  | unstorable {ph} (hph : ph = .absent ∨ ph = .arrived ∧ e.found = none)
      (hstorable : e.storable row = false) :
      Advanced e t row ph .insert (.replied .unhandled) t
  | violated {id} (htaken : t.taken (e.key row) = true) :
      Advanced e t row (.inserted id) .commit (.replied e.violation) t
  | created {id} (hkey : t.taken (e.key row) ≠ true) (hfree : t.serial.Free id) :
      Advanced e t row (.inserted id) .commit (.replied (.created id)) (t.place id row hfree hkey)

theorem flush_advanced {t t' : Table e.key} {row : ρ} {ph ph' : Phase ε}
    (hph : ph = .absent ∨ ph = .arrived ∧ e.found = none) (h : e.flush t row = (ph', t')) :
    Advanced e t row ph .insert ph' t' := by
  unfold Endpoint.flush at h
  split_ifs at h with hstorable
  · cases h
    exact .flushed hph hstorable
  · cases h
    exact .unstorable hph (Bool.eq_false_iff.mpr hstorable)

theorem advance_advanced {t t' : Table e.key} {row : ρ} {ph ph' : Phase ε} {m : Move}
    (h : e.advance t row ph m = some (ph', t')) : Advanced e t row ph m ph' t' := by
  unfold Endpoint.advance at h
  split at h
  · obtain ⟨x, hfound, heq⟩ := Option.map_eq_some_iff.mp h
    split_ifs at heq with htaken
    · cases heq
      exact .refused hfound htaken
    · cases heq
      refine .missed ?_ (Bool.eq_false_iff.mpr htaken)
      rw [hfound]
      exact Option.some_ne_none x
  · split_ifs at h with hnone
    exact flush_advanced (.inr ⟨rfl, Option.isNone_iff_eq_none.mp hnone⟩) (Option.some.inj h)
  · exact flush_advanced (.inl rfl) (Option.some.inj h)
  · split_ifs at h with hkey hfree
    · cases h
      exact .violated hkey
    · cases h
      exact .created hkey hfree
  · cases h

theorem step_advanced {d d' : Db e.key ε} {a : Act} (h : e.step d a = some d') :
    ∃ q ph t, d.requests[a.request]? = some q ∧ Advanced e d.table q.row q.phase a.move ph t ∧
      d' = ⟨t, d.requests.set a.request ⟨q.row, ph⟩⟩ := by
  unfold Endpoint.step at h
  split at h
  · cases h
  · rename_i q hq
    obtain ⟨⟨ph, t⟩, hadv, rfl⟩ := Option.map_eq_some_iff.mp h
    exact ⟨q, ph, t, hq, advance_advanced hadv, rfl⟩

/-- What a step does to the table: nothing, or it creates the row of the request. -/
theorem Advanced.table {t t' : Table e.key} {row : ρ} {ph ph' : Phase ε} {m : Move}
    (h : Advanced e t row ph m ph' t') :
    (t'.serial.rows = t.serial.rows ∧ ph'.isCreated = false) ∨
      ∃ id, ph' = .replied (.created id) ∧ t'.serial.rows = t.serial.rows ++ [(id, row)] := by
  cases h with
  | created hkey hfree => exact .inr ⟨_, rfl, rfl⟩
  | violated htaken =>
    refine .inl ⟨rfl, ?_⟩
    unfold Endpoint.violation
    cases e.violated <;> rfl
  | _ => exact .inl ⟨rfl, rfl⟩

/-- A row is created for a request in flight, under a new key. -/
theorem Advanced.of_created {t t' : Table e.key} {row : ρ} {ph : Phase ε} {m : Move} {id : Int}
    (h : Advanced e t row ph m (.replied (.created id)) t') :
    ph.inFlight = true ∧ t.taken (e.key row) = false := by
  generalize hph' : Phase.replied (.created id) = ph' at h
  cases h with
  | created hkey hfree => exact ⟨rfl, Bool.eq_false_iff.mpr hkey⟩
  | violated htaken =>
    unfold Endpoint.violation at hph'
    split at hph' <;> cases hph'
  | _ => cases hph'

theorem Advanced.not_replied {t t' : Table e.key} {row : ρ} {ph ph' : Phase ε} {m : Move}
    (h : Advanced e t row ph m ph' t') : ph.isReplied = false := by
  cases h with
  | flushed hph hstorable => rcases hph with rfl | ⟨rfl, -⟩ <;> rfl
  | unstorable hph hstorable => rcases hph with rfl | ⟨rfl, -⟩ <;> rfl
  | _ => rfl

theorem Advanced.taken {t t' : Table e.key} {row : ρ} {ph ph' : Phase ε} {m : Move}
    (h : Advanced e t row ph m ph' t') {k : κ} (htaken : t.taken k = true) : t'.taken k = true := by
  obtain ⟨r, hr, hkey⟩ := (t.taken_iff k).mp htaken
  refine (t'.taken_iff k).mpr ⟨r, ?_, hkey⟩
  rcases h.table with ⟨hrows, -⟩ | ⟨id, -, hrows⟩
  · rw [hrows]
    exact hr
  · rw [hrows]
    exact List.mem_append_left _ hr

structure Inv (e : Endpoint ρ κ ε) (t : Table e.key) (d : Db e.key ε) : Prop where
  rows : ∀ r, r ∈ d.table.serial.rows ↔
    r ∈ t.serial.rows ∨ ∃ q ∈ d.requests, q.phase = .replied (.created r.1) ∧ q.row = r.2
  count : ∀ k, (d.table.rowsOf k).length = (t.rowsOf k).length + d.created k
  refused : ∀ q ∈ d.requests, ∀ x, q.phase = .replied (.refused x) →
    d.table.taken (e.key q.row) = true ∧ (e.found = some x ∨ e.violated = some x)

omit [DecidableEq κ] in
theorem arrived_of_start {t : Table e.key} {rows : List ρ} {q : Request ρ ε}
    (hq : q ∈ (e.start t rows).requests) : q.phase = .arrived := by
  obtain ⟨row, -, rfl⟩ := List.mem_map.mp hq
  rfl

theorem inv_start (t : Table e.key) (rows : List ρ) : Inv e t (e.start t rows) := by
  refine ⟨fun r => ⟨.inl, ?_⟩, fun k => ?_, fun q hq x hx => ?_⟩
  · intro hr
    cases hr with
    | inl hr => exact hr
    | inr hnew =>
      obtain ⟨q, hq, hcreated, -⟩ := hnew
      rw [arrived_of_start hq] at hcreated
      cases hcreated
  · have hzero : (e.start t rows).created k = 0 := by
      refine List.countP_eq_zero.mpr fun q hq => ?_
      rw [arrived_of_start hq]
      simp [Phase.isCreated]
    rw [hzero]
    rfl
  · rw [arrived_of_start hq] at hx
    cases hx

theorem Advanced.ph_ne {t t' : Table e.key} {row : ρ} {ph ph' : Phase ε} {m : Move}
    (h : Advanced e t row ph m ph' t') (reply : Reply ε) : ph ≠ .replied reply := by
  intro heq
  have hnot := h.not_replied
  rw [heq] at hnot
  cases hnot

theorem step_rows {t : Table e.key} {d d' : Db e.key ε} {a : Act} (hd : Inv e t d)
    (h : e.step d a = some d') (r : Int × ρ) : r ∈ d'.table.serial.rows ↔
      r ∈ t.serial.rows ∨
        ∃ q ∈ d'.requests, q.phase = .replied (.created r.1) ∧ q.row = r.2 := by
  obtain ⟨q, ph, t', hq, hadv, rfl⟩ := step_advanced h
  obtain ⟨hlt, rfl⟩ := List.getElem?_eq_some_iff.mp hq
  have hset := Pool.exists_mem_set (p := fun q : Request ρ ε =>
    q.phase = .replied (.created r.1) ∧ q.row = r.2) hlt (fun hp => hadv.ph_ne _ hp.1)
    ⟨d.requests[a.request].row, ph⟩
  have hold := hd.rows r
  rw [hset]
  dsimp only
  cases hadv.table with
  | inl hsame =>
    obtain ⟨hrows, hcreated⟩ := hsame
    have hnew : ¬ (ph = .replied (.created r.1) ∧ d.requests[a.request].row = r.2) := by
      intro hp
      rw [hp.1] at hcreated
      cases hcreated
    rw [hrows, hold, or_iff_left hnew]
  | inr hnew =>
    obtain ⟨id, rfl, hrows⟩ := hnew
    have hlast : r = (id, d.requests[a.request].row) ↔
        (Phase.replied (.created id) : Phase ε) = .replied (.created r.1) ∧
          d.requests[a.request].row = r.2 := by
      constructor
      · intro heq
        rw [heq]
        exact ⟨rfl, rfl⟩
      · intro hpair
        obtain ⟨hid, hrow⟩ := hpair
        cases hid
        rw [hrow]
    rw [hrows, List.mem_append, List.mem_singleton, hold, hlast, or_assoc]

theorem step_count {t : Table e.key} {d d' : Db e.key ε} {a : Act} (hd : Inv e t d)
    (h : e.step d a = some d') (k : κ) :
    (d'.table.rowsOf k).length = (t.rowsOf k).length + d'.created k := by
  obtain ⟨q, ph, t', hq, hadv, rfl⟩ := step_advanced h
  obtain ⟨hlt, rfl⟩ := List.getElem?_eq_some_iff.mp hq
  have hcount := hd.count k
  have hbefore : d.requests[a.request].phase.isCreated = false := by
    have hnot := hadv.not_replied
    cases hph : d.requests[a.request].phase with
    | replied reply =>
      rw [hph] at hnot
      cases hnot
    | _ => rfl
  have hset : Db.created (⟨t', d.requests.set a.request ⟨d.requests[a.request].row, ph⟩⟩ :
      Db e.key ε) k = d.created k +
        if e.key d.requests[a.request].row = k ∧ ph.isCreated = true then 1 else 0 := by
    unfold Db.created
    rw [List.countP_set hlt]
    simp [hbefore]
  rw [hset]
  dsimp only
  unfold Table.rowsOf SerialTable.select at hcount ⊢
  cases hadv.table with
  | inl hsame =>
    obtain ⟨hrows, hcreated⟩ := hsame
    rw [hrows, hcount]
    simp [hcreated]
  | inr hnew =>
    obtain ⟨id, rfl, hrows⟩ := hnew
    rw [hrows, List.filter_append, List.length_append, hcount]
    by_cases hkey : e.key d.requests[a.request].row = k
    · simp [hkey, Phase.isCreated, Nat.add_assoc]
    · simp [hkey]

theorem Advanced.of_refused {t t' : Table e.key} {row : ρ} {ph : Phase ε} {m : Move} {x : ε}
    (h : Advanced e t row ph m (.replied (.refused x)) t') :
    t.taken (e.key row) = true ∧ (e.found = some x ∨ e.violated = some x) := by
  generalize hph' : Phase.replied (.refused x) = ph' at h
  cases h with
  | refused hfound htaken =>
    cases hph'
    exact ⟨htaken, .inl hfound⟩
  | violated htaken =>
    unfold Endpoint.violation at hph'
    split at hph'
    · rename_i y hviolated
      cases hph'
      exact ⟨htaken, .inr hviolated⟩
    · cases hph'
  | _ => cases hph'

theorem step_inv {t : Table e.key} {d d' : Db e.key ε} {a : Act} (hd : Inv e t d)
    (h : e.step d a = some d') : Inv e t d' := by
  refine ⟨step_rows hd h, step_count hd h, ?_⟩
  intro u hu x hx
  obtain ⟨q, ph, t', hq, hadv, rfl⟩ := step_advanced h
  cases List.mem_or_eq_of_mem_set hu with
  | inl hold =>
    obtain ⟨htaken, hwhich⟩ := hd.refused u hold x hx
    exact ⟨hadv.taken htaken, hwhich⟩
  | inr hnew =>
    rw [hnew] at hx ⊢
    dsimp only at hx ⊢
    rw [hx] at hadv
    obtain ⟨htaken, hwhich⟩ := hadv.of_refused
    exact ⟨hadv.taken htaken, hwhich⟩

theorem exec_inv {t : Table e.key} {rows : List ρ} {as : List Act} {d : Db e.key ε}
    (h : exec e.step (e.start t rows) as = some d) : Inv e t d :=
  exec_invariant (Inv e t) (fun _ _ _ hd hstep => step_inv hd hstep) (inv_start t rows) h

/-- A row for every key asked for, and none of the requests unhandled. -/
theorem Inv.law {t : Table e.key} {d : Db e.key ε} {conflict : ε → Prop} (hd : Inv e t d)
    (hhandled : ∀ q ∈ d.requests, q.phase ≠ .replied .unhandled)
    (hconflict : ∀ x, e.found = some x ∨ e.violated = some x → conflict x) :
    Law e.key conflict t d where
  handled := hhandled
  conflicts q hq x hx := hconflict x (hd.refused q hq x hx).2
  rows := hd.rows
  winner hfinished q hq := by
    have hcount := hd.count (e.key q.row)
    have hle := d.table.length_rowsOf_le (e.key q.row)
    have hpos : 0 < (d.table.rowsOf (e.key q.row)).length := by
      have hreplied := hfinished q hq
      match hph : q.phase with
      | .replied (.created id) =>
        have hcreated : 0 < d.created (e.key q.row) := by
          refine List.countP_pos_iff.mpr ⟨q, hq, ?_⟩
          simp [hph, Phase.isCreated]
        omega
      | .replied (.refused x) =>
        exact (d.table.length_rowsOf_pos _).mpr (hd.refused q hq x hph).1
      | .replied .unhandled => exact absurd hph (hhandled q hq)
      | .arrived | .absent | .inserted id =>
        rw [hph] at hreplied
        cases hreplied
    refine ⟨?_, by omega⟩
    have hbefore := t.length_rowsOf_pos (e.key q.row)
    split_ifs with htaken
    · have hone := hbefore.mpr htaken
      omega
    · have hnone : ¬ 0 < (t.rowsOf (e.key q.row)).length := fun h => htaken (hbefore.mp h)
      omega

theorem Advanced.of_unhandled {t t' : Table e.key} {row : ρ} {ph : Phase ε} {m : Move}
    (h : Advanced e t row ph m (.replied .unhandled) t') :
    e.storable row = false ∨
      e.violated = none ∧ t.taken (e.key row) = true ∧ ph.inFlight = true := by
  generalize hph' : Phase.replied .unhandled = ph' at h
  cases h with
  | unstorable hph hstorable => exact .inl hstorable
  | violated htaken =>
    unfold Endpoint.violation at hph'
    split at hph'
    · cases hph'
    · rename_i hviolated
      exact .inr ⟨hviolated, htaken, rfl⟩
  | _ => cases hph'

/-- The rows are those the requests came with. -/
theorem exec_requests {d d' : Db e.key ε} {as : List Act} (h : exec e.step d as = some d') :
    d'.requests.map Request.row = d.requests.map Request.row := by
  refine exec_invariant (fun u => u.requests.map Request.row = d.requests.map Request.row)
    (fun u a v hu hstep => ?_) rfl h
  obtain ⟨q, ph, t', hq, -, rfl⟩ := step_advanced hstep
  exact (Pool.map_set_of_eq (b := ⟨q.row, ph⟩) Request.row hq rfl).trans hu

omit [DecidableEq κ] in
theorem requests_start (t : Table e.key) (rows : List ρ) :
    (e.start t rows).requests.map Request.row = rows := by
  rw [Endpoint.start, List.map_map]
  exact List.map_id rows

omit [DecidableEq κ] in
theorem mem_rows_start {t : Table e.key} {rows : List ρ} {q : Request ρ ε}
    (hq : q ∈ (e.start t rows).requests) : q.row ∈ rows := by
  rw [← requests_start t rows]
  exact List.mem_map_of_mem hq

/-- The rows are storable, and no request is left unhandled. -/
def Served (e : Endpoint ρ κ ε) (d : Db e.key ε) : Prop :=
  ∀ q ∈ d.requests, e.storable q.row = true ∧ q.phase ≠ .replied .unhandled

omit [DecidableEq κ] in
theorem served_start (t : Table e.key) {rows : List ρ}
    (hstorable : ∀ row ∈ rows, e.storable row = true) : Served e (e.start t rows) := by
  intro q hq
  refine ⟨hstorable q.row (mem_rows_start hq), ?_⟩
  rw [arrived_of_start hq]
  intro heq
  cases heq

/-- A violation that is not answered does not come up. -/
theorem step_served {d d' : Db e.key ε} {a : Act} (hd : Served e d)
    (hguard : ∀ q ∈ d.requests[a.request]?, e.violated = none → q.phase.inFlight = true →
      d.table.taken (e.key q.row) = false)
    (h : e.step d a = some d') : Served e d' := by
  obtain ⟨q, ph, t', hq, hadv, rfl⟩ := step_advanced h
  have hrow := (hd q (List.mem_of_getElem? hq)).1
  intro u hu
  cases List.mem_or_eq_of_mem_set hu with
  | inl hold => exact hd u hold
  | inr hnew =>
    subst hnew
    refine ⟨hrow, fun hph => ?_⟩
    dsimp only at hph
    rw [hph] at hadv
    cases hadv.of_unhandled with
    | inl hnot =>
      rw [hrow] at hnot
      cases hnot
    | inr hlost =>
      obtain ⟨hviolated, htaken, hflight⟩ := hlost
      rw [hguard q hq hviolated hflight] at htaken
      cases htaken

/-- An endpoint that answers the violation leaves no storable row unhandled. -/
theorem handled_of_violated {t : Table e.key} {rows : List ρ} {d : Db e.key ε} {as : List Act}
    (hviolated : e.violated ≠ none) (hstorable : ∀ row ∈ rows, e.storable row = true)
    (h : exec e.step (e.start t rows) as = some d) :
    ∀ q ∈ d.requests, q.phase ≠ .replied .unhandled := by
  have hserved := exec_invariant (Served e)
    (fun _ _ _ hu hstep => step_served hu (fun _ _ hnone => absurd hnone hviolated) hstep)
    (served_start t hstorable) h
  exact fun q hq => (hserved q hq).2

/-- The requests in flight ask for different keys, and the table has none of them. -/
structure Solo (e : Endpoint ρ κ ε) (d : Db e.key ε) : Prop where
  served : Served e d
  free : ∀ (i : Nat) (q : Request ρ ε), d.requests[i]? = some q → q.phase.inFlight = true →
    d.table.taken (e.key q.row) = false
  apart : ∀ (i j : Nat) (q q' : Request ρ ε), i ≠ j → d.requests[i]? = some q →
    d.requests[j]? = some q' → q.phase.inFlight = true → q'.phase.inFlight = true →
    e.key q.row ≠ e.key q'.row

theorem solo_start (t : Table e.key) {rows : List ρ}
    (hstorable : ∀ row ∈ rows, e.storable row = true) : Solo e (e.start t rows) := by
  have harrived (i : Nat) (q : Request ρ ε) (hq : (e.start t rows).requests[i]? = some q) :
      q.phase.inFlight = false := by
    rw [arrived_of_start (List.mem_of_getElem? hq)]
    rfl
  refine ⟨served_start t hstorable, fun i q hq hflight => ?_,
    fun i j q q' _ hq _ hflight _ => ?_⟩
  · rw [harrived i q hq] at hflight
    cases hflight
  · rw [harrived i q hq] at hflight
    cases hflight

/-- A request that is in flight after its step was in flight before, or it has just missed. -/
theorem Advanced.of_inFlight {t t' : Table e.key} {row : ρ} {ph ph' : Phase ε} {m : Move}
    (hfound : e.found ≠ none) (h : Advanced e t row ph m ph' t') (hflight : ph'.inFlight = true) :
    t'.serial.rows = t.serial.rows ∧
      (ph.inFlight = true ∨ m = .lookup ∧ t.taken (e.key row) = false) := by
  cases h with
  | missed _ hfree => exact ⟨rfl, .inr ⟨rfl, hfree⟩⟩
  | flushed hph hstorable =>
    cases hph with
    | inl habsent =>
      subst habsent
      exact ⟨rfl, .inl rfl⟩
    | inr hnone => exact absurd hnone.2 hfound
  | _ => cases hflight

theorem taken_congr {t t' : Table e.key} (h : t'.serial.rows = t.serial.rows) (k : κ) :
    t'.taken k = t.taken k := by
  unfold Table.taken
  rw [h]

theorem taken_append {t t' : Table e.key} {id : Int} {row : ρ}
    (h : t'.serial.rows = t.serial.rows ++ [(id, row)]) (k : κ) :
    t'.taken k = (t.taken k || decide (e.key row = k)) := by
  unfold Table.taken
  rw [h, List.any_append]
  simp

section

variable {d : Db e.key ε} {a : Act} {q : Request ρ ε} {ph : Phase ε} {t : Table e.key}

theorem solo_free (hfound : e.found ≠ none) (hd : Solo e d) (hq : d.requests[a.request]? = some q)
    (hadv : Advanced e d.table q.row q.phase a.move ph t) {j : Nat} {u : Request ρ ε}
    (hu : (d.requests.set a.request ⟨q.row, ph⟩)[j]? = some u) (hflight : u.phase.inFlight = true) :
    t.taken (e.key u.row) = false := by
  cases Pool.getElem?_set_cases hu with
  | inl hnew =>
    obtain ⟨-, rfl⟩ := hnew
    obtain ⟨hrows, hwas⟩ := hadv.of_inFlight hfound hflight
    rw [taken_congr hrows]
    cases hwas with
    | inl hbefore => exact hd.free a.request q hq hbefore
    | inr hmissed => exact hmissed.2
  | inr hold =>
    obtain ⟨hne, huold⟩ := hold
    have hbefore := hd.free j u huold hflight
    cases hadv.table with
    | inl hsame => rw [taken_congr hsame.1, hbefore]
    | inr hnew =>
      obtain ⟨id, rfl, hrows⟩ := hnew
      have hother := hd.apart j a.request u q hne huold hq hflight hadv.of_created.1
      rw [taken_append hrows, hbefore, decide_eq_false (Ne.symm hother)]
      rfl

/-- The request that moves against another one. -/
theorem solo_against (hfound : e.found ≠ none) (hd : Solo e d) (ha : e.Alone d a)
    (hq : d.requests[a.request]? = some q) (hadv : Advanced e d.table q.row q.phase a.move ph t)
    (hflight : ph.inFlight = true) {j : Nat} {u : Request ρ ε} (hne : j ≠ a.request)
    (hu : d.requests[j]? = some u) (huflight : u.phase.inFlight = true) :
    e.key u.row ≠ e.key q.row := by
  cases (hadv.of_inFlight hfound hflight).2 with
  | inl hbefore => exact hd.apart j a.request u q hne hu hq huflight hbefore
  | inr hmissed => exact ha hmissed.1 q hq u (List.mem_of_getElem? hu) huflight

end

theorem step_solo {d d' : Db e.key ε} {a : Act} (hfound : e.found ≠ none) (hd : Solo e d)
    (ha : e.Alone d a) (h : e.step d a = some d') : Solo e d' := by
  refine ⟨step_served hd.served (fun q hq _ => hd.free a.request q hq) h, ?_, ?_⟩
  · intro j u hu hflight
    obtain ⟨q, ph, t', hq, hadv, rfl⟩ := step_advanced h
    exact solo_free hfound hd hq hadv hu hflight
  · intro i j u u' hne hu hu' hflight hflight'
    obtain ⟨q, ph, t', hq, hadv, rfl⟩ := step_advanced h
    rcases Pool.getElem?_set_cases hu with ⟨rfl, rfl⟩ | ⟨hi, hold⟩
    · rcases Pool.getElem?_set_cases hu' with ⟨hj, -⟩ | ⟨hj, hold'⟩
      · exact absurd hj.symm hne
      · exact (solo_against hfound hd ha hq hadv hflight hj hold' hflight').symm
    · rcases Pool.getElem?_set_cases hu' with ⟨rfl, rfl⟩ | ⟨hj, hold'⟩
      · exact solo_against hfound hd ha hq hadv hflight' hi hold hflight
      · exact hd.apart i j u u' hne hold hold' hflight hflight'

/-- An endpoint that looks the key up leaves no request unhandled that looks it up alone. -/
theorem handled_of_alone {t : Table e.key} {rows : List ρ} {d : Db e.key ε} {as : List Act}
    (hfound : e.found ≠ none) (hstorable : ∀ row ∈ rows, e.storable row = true)
    (halone : Meets e.step e.Alone (e.start t rows) as)
    (h : exec e.step (e.start t rows) as = some d) :
    ∀ q ∈ d.requests, q.phase ≠ .replied .unhandled := by
  have hsolo := exec_invariant_of_meets (Solo e)
    (fun _ _ _ hu ha hstep => step_solo hfound hu ha hstep) (solo_start t hstorable) halone h
  exact fun q hq => (hsolo.served q hq).2

/-- Two requests race for a key: one of them is unhandled, or will be. -/
inductive Doomed (e : Endpoint ρ κ ε) (d : Db e.key ε) : Prop
  | unhandled (i : Nat) (q : Request ρ ε) (hq : d.requests[i]? = some q)
      (hphase : q.phase = .replied .unhandled)
  | late (i : Nat) (q : Request ρ ε) (hq : d.requests[i]? = some q)
      (hflight : q.phase.inFlight = true) (htaken : d.table.taken (e.key q.row) = true)
  | racing (i j : Nat) (q q' : Request ρ ε) (hne : i ≠ j) (hq : d.requests[i]? = some q)
      (hq' : d.requests[j]? = some q') (hflight : q.phase.inFlight = true)
      (hflight' : q'.phase.inFlight = true) (hkey : e.key q.row = e.key q'.row)

/-- A request in flight stays there, creates its row or ends unhandled. -/
theorem Advanced.of_flying {t t' : Table e.key} {row : ρ} {ph ph' : Phase ε} {m : Move}
    (hviolated : e.violated = none) (h : Advanced e t row ph m ph' t')
    (hflight : ph.inFlight = true) :
    ph'.inFlight = true ∨ ph' = .replied .unhandled ∨ ∃ id, ph' = .replied (.created id) := by
  cases h with
  | refused | missed => cases hflight
  | flushed => exact .inl rfl
  | unstorable => exact .inr (.inl rfl)
  | violated htaken =>
    have hreply : e.violation = .unhandled := by
      unfold Endpoint.violation
      rw [hviolated]
    rw [hreply]
    exact .inr (.inl rfl)
  | created => exact .inr (.inr ⟨_, rfl⟩)

section

variable {d : Db e.key ε} {a : Act} {q : Request ρ ε} {ph : Phase ε} {t : Table e.key}

theorem doomed_of_late (hviolated : e.violated = none) (hq : d.requests[a.request]? = some q)
    (hadv : Advanced e d.table q.row q.phase a.move ph t) (hflight : q.phase.inFlight = true)
    (htaken : d.table.taken (e.key q.row) = true) :
    Doomed e ⟨t, d.requests.set a.request ⟨q.row, ph⟩⟩ := by
  have hnow := Pool.getElem?_set_hit hq ⟨q.row, ph⟩
  rcases hadv.of_flying hviolated hflight with hstill | hunhandled | ⟨id, hcreated⟩
  · exact .late a.request _ hnow hstill (hadv.taken htaken)
  · exact .unhandled a.request _ hnow hunhandled
  · rw [hcreated] at hadv
    rw [hadv.of_created.2] at htaken
    cases htaken

theorem doomed_of_racing (hviolated : e.violated = none) (hq : d.requests[a.request]? = some q)
    (hadv : Advanced e d.table q.row q.phase a.move ph t) (hflight : q.phase.inFlight = true)
    {j : Nat} {q' : Request ρ ε} (hne : a.request ≠ j) (hq' : d.requests[j]? = some q')
    (hflight' : q'.phase.inFlight = true) (hkey : e.key q.row = e.key q'.row) :
    Doomed e ⟨t, d.requests.set a.request ⟨q.row, ph⟩⟩ := by
  have hnow := Pool.getElem?_set_hit hq ⟨q.row, ph⟩
  have hthen := Pool.getElem?_set_miss hne hq' ⟨q.row, ph⟩
  rcases hadv.of_flying hviolated hflight with hstill | hunhandled | ⟨id, hcreated⟩
  · exact .racing a.request j _ q' hne hnow hthen hstill hflight' hkey
  · exact .unhandled a.request _ hnow hunhandled
  · have hrows : t.taken (e.key q'.row) = true := by
      rcases hadv.table with ⟨-, hnot⟩ | ⟨id', -, hrows⟩
      · rw [hcreated] at hnot
        cases hnot
      · rw [taken_append hrows, decide_eq_true hkey, Bool.or_true]
    exact .late j q' hthen hflight' hrows

end

theorem step_doomed {d d' : Db e.key ε} {a : Act} (hviolated : e.violated = none)
    (hd : Doomed e d) (h : e.step d a = some d') : Doomed e d' := by
  obtain ⟨q, ph, t', hq, hadv, rfl⟩ := step_advanced h
  cases hd with
  | unhandled i u hu hphase =>
    have hne : a.request ≠ i := by
      intro heq
      rw [heq, hu] at hq
      cases hq
      exact hadv.ph_ne _ hphase
    exact .unhandled i u (Pool.getElem?_set_miss hne hu _) hphase
  | late i u hu hflight htaken =>
    by_cases hi : a.request = i
    · subst hi
      cases hq.symm.trans hu
      exact doomed_of_late hviolated hq hadv hflight htaken
    · exact .late i u (Pool.getElem?_set_miss hi hu _) hflight (hadv.taken htaken)
  | racing i j u u' hne hu hu' hflight hflight' hkey =>
    by_cases hi : a.request = i
    · subst hi
      cases hq.symm.trans hu
      exact doomed_of_racing hviolated hq hadv hflight hne hu' hflight' hkey
    · by_cases hj : a.request = j
      · subst hj
        cases hq.symm.trans hu'
        exact doomed_of_racing hviolated hq hadv hflight' hi hu hflight hkey.symm
      · exact .racing i j u u' hne (Pool.getElem?_set_miss hi hu _)
          (Pool.getElem?_set_miss hj hu' _) hflight hflight' hkey

theorem Doomed.not_handled {d : Db e.key ε} (hd : Doomed e d) (hfinished : d.Finished) :
    ∃ q ∈ d.requests, q.phase = .replied .unhandled := by
  have hnot {i : Nat} {q : Request ρ ε} (hq : d.requests[i]? = some q)
      (hflight : q.phase.inFlight = true) : False := by
    have hreplied := hfinished q (List.mem_of_getElem? hq)
    cases hph : q.phase <;> rw [hph] at hflight hreplied
    · cases hflight
    · cases hreplied
    · cases hreplied
    · cases hflight
  cases hd with
  | unhandled i q hq hphase => exact ⟨q, List.mem_of_getElem? hq, hphase⟩
  | late i q hq hflight htaken => exact (hnot hq hflight).elim
  | racing i j q q' hne hq hq' hflight hflight' hkey => exact (hnot hq hflight).elim

/-- A lookup of a key that a request in flight asks for dooms one of the two. -/
theorem doomed_of_not_alone {d d' : Db e.key ε} {a : Act} (hnot : ¬ e.Alone d a)
    (h : e.step d a = some d') : Doomed e d' := by
  obtain ⟨q, ph, t', hq, hadv, rfl⟩ := step_advanced h
  simp only [Endpoint.Alone, Classical.not_imp, not_forall, not_not] at hnot
  obtain ⟨hmove, u, hu, q', hmem, hflight', hkey⟩ := hnot
  cases hq.symm.trans hu
  obtain ⟨j, hq'⟩ := List.getElem?_of_mem hmem
  rw [hmove] at hadv
  have hne : a.request ≠ j := by
    intro heq
    subst heq
    cases hq.symm.trans hq'
    generalize hph : q.phase = before at hadv hflight'
    cases hadv <;> cases hflight'
  have hthen := Pool.getElem?_set_miss hne hq' ⟨q.row, ph⟩
  have hnow := Pool.getElem?_set_hit hq ⟨q.row, ph⟩
  generalize hph : q.phase = before at hadv
  generalize hlook : Move.lookup = m at hadv
  cases hadv with
  | refused hfound htaken =>
    rw [← hkey] at htaken
    exact .late j q' hthen hflight' htaken
  | missed hfound hfree => exact .racing a.request j _ q' hne hnow hthen rfl hflight' hkey.symm
  | _ => cases hlook

/-- In a finished run of an endpoint that does not answer the violation, a request that did
not look its key up alone has left one unhandled. -/
theorem alone_of_handled {t : Table e.key} {rows : List ρ} {d : Db e.key ε} {as : List Act}
    (hviolated : e.violated = none) (h : exec e.step (e.start t rows) as = some d)
    (hfinished : d.Finished) (hhandled : ∀ q ∈ d.requests, q.phase ≠ .replied .unhandled) :
    Meets e.step e.Alone (e.start t rows) as := by
  by_contra hnot
  obtain ⟨pre, a, post, u, rfl, hpre, hbreak⟩ := exists_break_of_not_meets h hnot
  obtain ⟨u', hu', hrest⟩ := exec_append_eq_some.mp h
  cases hpre.symm.trans hu'
  obtain ⟨v, hv, hpost⟩ := exec_cons_eq_some.mp hrest
  have hdoomed := exec_invariant (Doomed e) (fun _ _ _ hd hstep => step_doomed hviolated hd hstep)
    (doomed_of_not_alone hbreak hv) hpost
  obtain ⟨q, hq, hphase⟩ := hdoomed.not_handled hfinished
  exact hhandled q hq hphase

theorem Advanced.of_arrived {t t' : Table e.key} {row : ρ} {ph ph' : Phase ε} {m : Move}
    (h : Advanced e t row ph m ph' t') (hfound : e.found = none)
    (hstorable : e.storable row = false) (harrived : ph = .arrived) :
    ph' = .replied .unhandled := by
  subst harrived
  generalize hbefore : Phase.arrived = before at h
  cases h with
  | refused hsome =>
    rw [hfound] at hsome
    cases hsome
  | missed hsome => exact absurd hfound hsome
  | flushed hph htrue =>
    rw [hstorable] at htrue
    cases htrue
  | unstorable => rfl
  | _ => cases hbefore

/-- Without a lookup, a row the columns do not accept ends unhandled. -/
theorem storable_of_handled {t : Table e.key} {rows : List ρ} {d : Db e.key ε} {as : List Act}
    (hfound : e.found = none) (h : exec e.step (e.start t rows) as = some d)
    (hfinished : d.Finished) (hhandled : ∀ q ∈ d.requests, q.phase ≠ .replied .unhandled) :
    ∀ row ∈ rows, e.storable row = true := by
  have hinv : ∀ q ∈ d.requests, e.storable q.row = false →
      q.phase = .arrived ∨ q.phase = .replied .unhandled := by
    refine exec_invariant (fun u => ∀ q ∈ u.requests, e.storable q.row = false →
      q.phase = .arrived ∨ q.phase = .replied .unhandled) (fun u a v hu hstep => ?_)
      (fun q hq _ => .inl (arrived_of_start hq)) h
    obtain ⟨q, ph, t', hq, hadv, rfl⟩ := step_advanced hstep
    intro r hr hrow
    cases List.mem_or_eq_of_mem_set hr with
    | inl hold => exact hu r hold hrow
    | inr hnew =>
      subst hnew
      rcases hu q (List.mem_of_getElem? hq) hrow with harrived | hunhandled
      · exact .inr (hadv.of_arrived hfound hrow harrived)
      · exact absurd hunhandled (hadv.ph_ne _)
  intro row hrow
  rw [← requests_start t rows, ← exec_requests h] at hrow
  obtain ⟨q, hq, rfl⟩ := List.mem_map.mp hrow
  by_contra hnot
  rcases hinv q hq (Bool.eq_false_iff.mpr hnot) with harrived | hunhandled
  · have hreplied := hfinished q hq
    rw [harrived] at hreplied
    cases hreplied
  · exact hhandled q hq hunhandled

/-- The ids that were drawn for a commit wait for one request each. -/
structure Numbered (d : Db e.key ε) : Prop where
  free : ∀ (i : Nat) (q : Request ρ ε) (id : Int), d.requests[i]? = some q →
    q.phase = .inserted id → d.table.serial.Free id
  apart : ∀ (i j : Nat) (q q' : Request ρ ε) (id : Int), i ≠ j → d.requests[i]? = some q →
    d.requests[j]? = some q' → q.phase = .inserted id → q'.phase ≠ .inserted id

omit [DecidableEq κ] in
theorem numbered_start (t : Table e.key) (rows : List ρ) : Numbered (e.start t rows) := by
  have hnot (i : Nat) (q : Request ρ ε) (id : Int) (hq : (e.start t rows).requests[i]? = some q) :
      q.phase ≠ .inserted id := by
    rw [arrived_of_start (List.mem_of_getElem? hq)]
    intro heq
    cases heq
  exact ⟨fun i q id hq hid => absurd hid (hnot i q id hq),
    fun i j q q' id _ _ hq' _ => hnot j q' id hq'⟩

/-- An id that is free stays free, unless its row is placed. -/
theorem Advanced.free {t t' : Table e.key} {row : ρ} {ph ph' : Phase ε} {m : Move}
    (h : Advanced e t row ph m ph' t') {id : Int} (hfree : t.serial.Free id)
    (hother : ph ≠ .inserted id) : t'.serial.Free id := by
  cases h with
  | flushed hph hstorable => exact ⟨Int.lt_trans hfree.1 (Int.lt_succ _), hfree.2⟩
  | created hkey hplace =>
    refine ⟨hfree.1, ?_⟩
    intro hmem
    obtain ⟨r, hr, heq⟩ := List.mem_map.mp hmem
    cases List.mem_append.mp hr with
    | inl hold => exact hfree.2 (List.mem_map.mpr ⟨r, hold, heq⟩)
    | inr hnew =>
      rw [List.mem_singleton.mp hnew] at heq
      exact hother (congrArg Phase.inserted heq)
  | _ => exact hfree

/-- A request that waits for its commit after its step has drawn its id there. -/
theorem Advanced.of_inserted {t t' : Table e.key} {row : ρ} {ph : Phase ε} {m : Move} {id : Int}
    (h : Advanced e t row ph m (.inserted id) t') :
    id = t.serial.next ∧ t'.serial.Free id := by
  generalize hph' : Phase.inserted id = ph' at h
  cases h with
  | flushed hph hstorable =>
    cases hph'
    exact ⟨rfl, t.serial.free_draw⟩
  | violated htaken =>
    unfold Endpoint.violation at hph'
    split at hph' <;> cases hph'
  | _ => cases hph'

theorem step_numbered {d d' : Db e.key ε} {a : Act} (hd : Numbered d) (h : e.step d a = some d') :
    Numbered d' := by
  obtain ⟨q, ph, t', hq, hadv, rfl⟩ := step_advanced h
  have hfresh (j : Nat) (u : Request ρ ε) (id : Int) (hu : d.requests[j]? = some u)
      (hid : u.phase = .inserted id) : ph ≠ .inserted id := by
    intro hph
    rw [hph] at hadv
    exact absurd hadv.of_inserted.1 (Int.ne_of_lt (hd.free j u id hu hid).1)
  refine ⟨fun j u id hu hid => ?_, fun i j u u' id hne hu hu' hid => ?_⟩
  · rcases Pool.getElem?_set_cases hu with ⟨rfl, rfl⟩ | ⟨hne, hold⟩
    · dsimp only at hid
      rw [hid] at hadv
      exact hadv.of_inserted.2
    · exact hadv.free (hd.free j u id hold hid) (hd.apart j a.request u q id hne hold hq hid)
  · rcases Pool.getElem?_set_cases hu with ⟨rfl, rfl⟩ | ⟨hi, hold⟩
    · rcases Pool.getElem?_set_cases hu' with ⟨hj, -⟩ | ⟨-, hold'⟩
      · exact absurd hj.symm hne
      · exact fun hid' => hfresh j u' id hold' hid' hid
    · rcases Pool.getElem?_set_cases hu' with ⟨rfl, rfl⟩ | ⟨-, hold'⟩
      · exact hfresh i u id hold hid
      · exact hd.apart i j u u' id hne hold hold' hid

/-- A request without its answer has a step. -/
theorem exists_advance {t : Table e.key} {row : ρ} {ph : Phase ε} (hph : ph.isReplied = false)
    (hfree : ∀ id, ph = .inserted id → t.serial.Free id) :
    ∃ m r, e.advance t row ph m = some r := by
  cases ph with
  | arrived =>
    cases hfound : e.found with
    | none => exact ⟨.insert, e.flush t row, by simp [Endpoint.advance, hfound]⟩
    | some x => exact ⟨.lookup, _, by simp only [Endpoint.advance, hfound, Option.map_some]; rfl⟩
  | absent => exact ⟨.insert, e.flush t row, rfl⟩
  | inserted id =>
    by_cases hkey : t.taken (e.key row) = true
    · exact ⟨.commit, _, commit_taken id hkey⟩
    · exact ⟨.commit, _, commit_free hkey (hfree id rfl)⟩
  | replied reply => cases hph

theorem Advanced.rest_lt {t t' : Table e.key} {row : ρ} {ph ph' : Phase ε} {m : Move}
    (h : Advanced e t row ph m ph' t') : ph'.rest < ph.rest := by
  cases h with
  | flushed hph | unstorable hph => rcases hph with rfl | ⟨rfl, -⟩ <;> simp [Phase.rest]
  | _ => simp [Phase.rest]

/-- The requests never block each other: a run can be continued until all have an answer. -/
theorem exists_finished {d : Db e.key ε} (hd : Numbered d) :
    ∃ as d', exec e.step d as = some d' ∧ d'.Finished := by
  induction hn : d.rest using Nat.strongRecOn generalizing d with
  | ind n ih =>
    subst hn
    by_cases hfinished : d.Finished
    · exact ⟨[], d, rfl, hfinished⟩
    · simp only [Db.Finished, not_forall, Bool.not_eq_true] at hfinished
      obtain ⟨q, hmem, hph⟩ := hfinished
      obtain ⟨i, hq⟩ := List.getElem?_of_mem hmem
      obtain ⟨m, ⟨ph, t⟩, hadv⟩ := exists_advance hph fun id hid => hd.free i q id hq hid
      have hstep : e.step d ⟨i, m⟩ = some ⟨t, d.requests.set i ⟨q.row, ph⟩⟩ := by
        unfold Endpoint.step
        dsimp only
        rw [hq]
        dsimp only
        rw [hadv]
        rfl
      have hrest : Db.rest (⟨t, d.requests.set i ⟨q.row, ph⟩⟩ : Db e.key ε) < d.rest := by
        unfold Db.rest
        rw [List.map_set]
        refine Pool.sum_set_lt ?_ (advance_advanced hadv).rest_lt
        rw [List.getElem?_map, hq]
        rfl
      obtain ⟨as, d', has, hdone⟩ := ih _ hrest (step_numbered hd hstep) rfl
      exact ⟨⟨i, m⟩ :: as, d', exec_cons_eq_some.mpr ⟨_, hstep, has⟩, hdone⟩

theorem run_finishes {t : Table e.key} {rows : List ρ} {d : Db e.key ε} {as : List Act}
    (h : exec e.step (e.start t rows) as = some d) :
    ∃ bs d', exec e.step d bs = some d' ∧ d'.Finished :=
  exists_finished (exec_invariant Numbered (fun _ _ _ hd hstep => step_numbered hd hstep)
    (numbered_start t rows) h)

end

end UniqueKey
