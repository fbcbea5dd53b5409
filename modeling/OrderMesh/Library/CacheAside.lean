import OrderMesh.Library.Dict
import OrderMesh.Library.Pool
import OrderMesh.Library.Transition

namespace CacheAside

/-- A store of rows that are cached under names. A writer deletes the entries of `touched` after its
commit, and only a write that touches a row that is there changes it. -/
structure Backend (σ κ η ν ω : Type*) where
  view : σ → κ → Option ν
  write : σ → ω → σ
  touched : σ → ω → List κ
  name : κ → η
  name_injective : ∀ j k, name j = name k → j = k
  frame : ∀ s w k v, view s k = some v → k ∉ touched s w → view (write s w) k = some v

variable {σ κ η ν ω : Type*}

/-- How far a reader has come; a loaded row has the version of the store it comes from. -/
inductive Phase (ν : Type*)
  | started
  | missed
  | loaded (row : Option ν) (version : Nat)
  | replied (row : Option ν)

/-- A reader; `floor` is the newest version of its row whose entry had been deleted
when the reader started. -/
structure Reader (κ ν : Type*) where
  key : κ
  floor : Nat
  phase : Phase ν

/-- The store at every version so far, the deletes still to come with the versions of their writes,
and for each row the newest version whose delete has taken place. -/
structure State (σ κ η ν : Type*) where
  past : List σ
  store : σ
  entries : Dict η ν
  pending : List (κ × Nat)
  deleted : κ → Nat
  readers : List (Reader κ ν)

def State.version (d : State σ κ η ν) : Nat := d.past.length

/-- The store at a version. -/
def State.at (d : State σ κ η ν) (n : Nat) : Option σ := (d.past ++ [d.store])[n]?

def State.start (s : σ) : State σ κ η ν := ⟨[], s, .empty, [], fun _ => 0, []⟩

section Versions

variable (b : Backend σ κ η ν ω)

/-- The row at some version that is not older than `floor`. -/
def State.SinceVersion (d : State σ κ η ν) (floor : Nat) (k : κ) (row : Option ν) : Prop :=
  ∃ n s, floor ≤ n ∧ d.at n = some s ∧ b.view s k = row

theorem State.sinceVersion_iff (d : State σ κ η ν) (floor : Nat) (k : κ) (row : Option ν) :
    d.SinceVersion b floor k row ↔ ∃ s ∈ (d.past ++ [d.store]).drop floor, b.view s k = row := by
  constructor
  · rintro ⟨n, s, hle, hat, hrow⟩
    refine ⟨s, List.mem_iff_getElem?.mpr ⟨n - floor, ?_⟩, hrow⟩
    rw [List.getElem?_drop, Nat.add_sub_cancel' hle]
    exact hat
  · rintro ⟨s, hmem, hrow⟩
    obtain ⟨i, hi⟩ := List.mem_iff_getElem?.mp hmem
    rw [List.getElem?_drop] at hi
    exact ⟨floor + i, s, Nat.le_add_right _ _, hi, hrow⟩

instance [DecidableEq ν] (d : State σ κ η ν) (floor : Nat) (k : κ) (row : Option ν) :
    Decidable (d.SinceVersion b floor k row) :=
  decidable_of_iff _ (State.sinceVersion_iff b d floor k row).symm

def Reader.reply (r : Reader κ ν) : Option (Option ν) :=
  match r.phase with
  | .replied row => some row
  | _ => none

/-- Every reply is the row at some version no older than the writes that were finished
when its reader started. -/
def State.Fresh (d : State σ κ η ν) : Prop :=
  ∀ r ∈ d.readers, ∀ row ∈ r.reply, d.SinceVersion b r.floor r.key row

instance [DecidableEq ν] (d : State σ κ η ν) : Decidable (d.Fresh b) :=
  inferInstanceAs (Decidable (∀ r ∈ d.readers, ∀ row ∈ r.reply, d.SinceVersion b r.floor r.key row))

variable {b} {d d' : State σ κ η ν}

/-- The later state remembers the versions of the earlier one. -/
def State.Extends (d d' : State σ κ η ν) : Prop := ∀ n s, d.at n = some s → d'.at n = some s

theorem State.SinceVersion.extends {m n : Nat} {k : κ} {row : Option ν}
    (h : d.SinceVersion b n k row) (hext : d.Extends d') (hle : m ≤ n) :
    d'.SinceVersion b m k row := by
  obtain ⟨i, s, hi, hat, hrow⟩ := h
  exact ⟨i, s, Nat.le_trans hle hi, hext i s hat, hrow⟩

theorem State.at_version (d : State σ κ η ν) : d.at d.version = some d.store :=
  List.getElem?_concat_length

theorem Reader.phase_of_reply {r : Reader κ ν} {row : Option ν} (h : row ∈ r.reply) :
    r.phase = .replied row := by
  unfold Reader.reply at h
  split at h
  · rename_i hphase
    rw [hphase, Option.some.inj h]
  · cases h

theorem extends_write (d : State σ κ η ν) (s : σ) (pending : List (κ × Nat)) :
    d.Extends { d with past := d.past ++ [d.store], store := s, pending := pending } := by
  intro n t hat
  have hlt : n < (d.past ++ [d.store]).length := (List.getElem?_eq_some_iff.mp hat).1
  exact (List.getElem?_append_left hlt).trans hat

end Versions

variable [DecidableEq κ] [DecidableEq η]

/-- Labels say of every call of the cache whether it succeeds. -/
inductive Act (κ η ω : Type*)
  | write (w : ω)
  | delete (i : Nat) (ok : Bool)
  | expire (name : η)
  | start (key : κ)
  | lookup (i : Nat) (ok : Bool)
  | load (i : Nat)
  | fill (i : Nat) (ok : Bool)

variable (b : Backend σ κ η ν ω)

/-- One step of a reader: how far it has come, and what it puts into the cache. -/
def Reader.advance (d : State σ κ η ν) (r : Reader κ ν) :
    Act κ η ω → Option (Phase ν × Dict η ν)
  | .lookup _ ok =>
      match r.phase with
      | .started =>
          match if ok then d.entries.get? (b.name r.key) else none with
          | some v => some (.replied (some v), d.entries)
          | none => some (.missed, d.entries)
      | _ => none
  | .load _ =>
      match r.phase with
      | .missed => some (.loaded (b.view d.store r.key) d.version, d.entries)
      | _ => none
  | .fill _ ok =>
      match r.phase with
      | .loaded (some v) _ =>
          some (.replied (some v), if ok then d.entries.set (b.name r.key) v else d.entries)
      | .loaded none _ => some (.replied none, d.entries)
      | _ => none
  | _ => none

def State.read (d : State σ κ η ν) (i : Nat) (a : Act κ η ω) : Option (State σ κ η ν) :=
  match d.readers[i]? with
  | none => none
  | some r =>
      (r.advance b d a).map fun next =>
        { d with
          entries := next.2
          readers := d.readers.set i { r with phase := next.1 } }

def step (d : State σ κ η ν) : Act κ η ω → Option (State σ κ η ν)
  | .write w =>
      some { d with
        past := d.past ++ [d.store]
        store := b.write d.store w
        pending := d.pending ++ (b.touched d.store w).map fun k => (k, d.version + 1) }
  | .delete i ok =>
      match d.pending[i]? with
      | none => none
      | some (k, n) =>
          let rest := { d with pending := d.pending.eraseIdx i }
          some (if ok then
            { rest with
              entries := d.entries.delete (b.name k)
              deleted := fun j => if j = k then max (d.deleted j) n else d.deleted j }
          else rest)
  | .expire name => some { d with entries := d.entries.delete name }
  | .start key => some { d with readers := d.readers ++ [⟨key, d.deleted key, .started⟩] }
  | .lookup i ok => d.read b i (.lookup i ok)
  | .load i => d.read b i (.load i)
  | .fill i ok => d.read b i (.fill i ok)

/-- The version of the row that the reader is about to cache. -/
def Reader.version (r : Reader κ ν) : Option Nat :=
  match r.phase with
  | .loaded (some _) n => some n
  | _ => none

/-- A row that is cached was loaded at or after every write of it whose delete has succeeded. -/
def Timely (d : State σ κ η ν) : Act κ η ω → Prop
  | .fill i true => ∀ r ∈ d.readers[i]?, ∀ n ∈ r.version, d.deleted r.key ≤ n
  | _ => True

instance (d : State σ κ η ν) : ∀ a : Act κ η ω, Decidable (Timely d a)
  | .fill i true =>
      inferInstanceAs (Decidable (∀ r ∈ d.readers[i]?, ∀ n ∈ r.version, d.deleted r.key ≤ n))
  | .fill _ false | .write _ | .delete _ _ | .expire _ | .start _ | .lookup _ _ | .load _ =>
      .isTrue trivial

/-- Everything one step can be. -/
inductive Stepped (d : State σ κ η ν) : Act κ η ω → State σ κ η ν → Prop
  | wrote {w} : Stepped d (.write w) { d with
      past := d.past ++ [d.store]
      store := b.write d.store w
      pending := d.pending ++ (b.touched d.store w).map fun k => (k, d.version + 1) }
  | deleted {i k n} (hp : d.pending[i]? = some (k, n)) : Stepped d (.delete i true) { d with
      pending := d.pending.eraseIdx i
      entries := d.entries.delete (b.name k)
      deleted := fun j => if j = k then max (d.deleted j) n else d.deleted j }
  | skipped {i} : Stepped d (.delete i false) { d with pending := d.pending.eraseIdx i }
  | expired {name} : Stepped d (.expire name) { d with entries := d.entries.delete name }
  | started {key} : Stepped d (.start key) { d with
      readers := d.readers ++ [⟨key, d.deleted key, .started⟩] }
  | hit {i ok r v} (hr : d.readers[i]? = some r) (hget : d.entries.get? (b.name r.key) = some v) :
      Stepped d (.lookup i ok) { d with
        readers := d.readers.set i { r with phase := .replied (some v) } }
  | missed {i ok r} (hr : d.readers[i]? = some r) : Stepped d (.lookup i ok) { d with
      readers := d.readers.set i { r with phase := .missed } }
  | loaded {i r} (hr : d.readers[i]? = some r) : Stepped d (.load i) { d with
      readers := d.readers.set i { r with phase := .loaded (b.view d.store r.key) d.version } }
  | filled {i r v n} (hr : d.readers[i]? = some r) (hphase : r.phase = .loaded (some v) n) :
      Stepped d (.fill i true) { d with
        entries := d.entries.set (b.name r.key) v
        readers := d.readers.set i { r with phase := .replied (some v) } }
  | unfilled {i ok r row n} (hr : d.readers[i]? = some r) (hphase : r.phase = .loaded row n) :
      Stepped d (.fill i ok) { d with
        readers := d.readers.set i { r with phase := .replied row } }

theorem step_stepped {d d' : State σ κ η ν} {a : Act κ η ω} (h : step b d a = some d') :
    Stepped b d a d' := by
  have hread : ∀ {i : Nat}, d.read b i a = some d' → ∃ r next, d.readers[i]? = some r ∧
      r.advance b d a = some next ∧ d' = { d with
        entries := next.2
        readers := d.readers.set i { r with phase := next.1 } } := by
    intro i hi
    unfold State.read at hi
    split at hi
    · cases hi
    · rename_i r hr
      obtain ⟨next, hnext, heq⟩ := Option.map_eq_some_iff.mp hi
      exact ⟨r, next, hr, hnext, heq.symm⟩
  cases a with
  | write w =>
    cases h
    exact .wrote
  | delete i ok =>
    simp only [step] at h
    split at h
    · cases h
    · rename_i k n hp
      cases ok with
      | true =>
        cases h
        exact .deleted hp
      | false =>
        cases h
        exact .skipped
  | expire name =>
    cases h
    exact .expired
  | start key =>
    cases h
    exact .started
  | lookup i ok =>
    obtain ⟨r, next, hr, hnext, rfl⟩ := hread h
    simp only [Reader.advance] at hnext
    split at hnext
    · split at hnext
      · rename_i v hget
        split_ifs at hget
        cases hnext
        exact .hit hr hget
      · cases hnext
        exact .missed hr
    · cases hnext
  | load i =>
    obtain ⟨r, next, hr, hnext, rfl⟩ := hread h
    simp only [Reader.advance] at hnext
    split at hnext
    · cases hnext
      exact .loaded hr
    · cases hnext
  | fill i ok =>
    obtain ⟨r, next, hr, hnext, rfl⟩ := hread h
    simp only [Reader.advance] at hnext
    split at hnext
    · rename_i v n hphase
      cases hnext
      cases ok with
      | true => exact .filled hr hphase
      | false => exact .unfilled hr hphase
    · rename_i n hphase
      cases hnext
      exact .unfilled hr hphase
    · cases hnext

section Invariant

variable {b} {d d' : State σ κ η ν} {a : Act κ η ω}

variable {lim : Nat → Nat}

variable (b lim) in
structure Reader.Sound (d : State σ κ η ν) (r : Reader κ ν) : Prop where
  floor : r.floor ≤ d.deleted r.key
  loaded : ∀ row n, r.phase = .loaded row n → r.floor ≤ n ∧
    ∃ s, d.at n = some s ∧ b.view s r.key = row
  replied : ∀ row, r.phase = .replied row → d.SinceVersion b (lim r.floor) r.key row

omit [DecidableEq κ] [DecidableEq η] in
theorem Reader.Sound.extends {r : Reader κ ν} (h : r.Sound b lim d) (hext : d.Extends d')
    (hdeleted : ∀ k, d.deleted k ≤ d'.deleted k) : r.Sound b lim d' := by
  refine ⟨Nat.le_trans h.floor (hdeleted r.key), fun row n hphase => ?_, fun row hphase => ?_⟩
  · obtain ⟨hfloor, s, hat, hrow⟩ := h.loaded row n hphase
    exact ⟨hfloor, s, hext n s hat, hrow⟩
  · exact (h.replied row hphase).extends hext (Nat.le_refl _)

omit [DecidableEq κ] [DecidableEq η] in
/-- A row that was loaded answers the reader. -/
theorem Reader.Sound.answer {r : Reader κ ν} (hlim : ∀ n, lim n ≤ n) (h : r.Sound b lim d)
    {row : Option ν} {n : Nat} (hphase : r.phase = .loaded row n) :
    d.SinceVersion b (lim r.floor) r.key row := by
  obtain ⟨hfloor, s, hat, hrow⟩ := h.loaded row n hphase
  exact ⟨n, s, Nat.le_trans (hlim _) hfloor, hat, hrow⟩

omit [DecidableEq κ] [DecidableEq η] in
theorem Reader.Sound.reply {r : Reader κ ν} (h : r.Sound b lim d) {row : Option ν}
    (hrow : d.SinceVersion b (lim r.floor) r.key row) :
    Reader.Sound b lim d { r with phase := .replied row } := by
  refine ⟨h.floor, fun _ _ hphase => (by cases hphase), fun row' hphase => ?_⟩
  cases hphase
  exact hrow

variable (b lim) in
structure State.Inv (d : State σ κ η ν) : Prop where
  entries : ∀ k v, d.entries.get? (b.name k) = some v →
    d.SinceVersion b (lim (d.deleted k)) k (some v)
  pending : ∀ p ∈ d.pending, p.2 ≤ d.version
  deleted : ∀ k, d.deleted k ≤ d.version
  readers : ∀ r ∈ d.readers, r.Sound b lim d

/-- Rows that are cached in time, as far as `lim` asks for it. -/
def Within (lim : Nat → Nat) (d : State σ κ η ν) : Act κ η ω → Prop
  | .fill i true => ∀ r ∈ d.readers[i]?, ∀ n ∈ r.version, lim (d.deleted r.key) ≤ n
  | _ => True

omit [DecidableEq κ] [DecidableEq η] in
theorem within_zero (d : State σ κ η ν) (a : Act κ η ω) : Within (fun _ => 0) d a := by
  cases a with
  | fill i ok =>
    cases ok with
    | true => exact fun _ _ _ _ => Nat.zero_le _
    | false => trivial
  | _ => trivial

omit [DecidableEq κ] in
/-- A reader that goes on, with the entries it may have added. -/
theorem State.Inv.read (hinv : d.Inv b lim) {i : Nat} {r : Reader κ ν} (hsound : r.Sound b lim d)
    {entries : Dict η ν} (hentries : ∀ k v, entries.get? (b.name k) = some v →
      d.SinceVersion b (lim (d.deleted k)) k (some v)) :
    State.Inv b lim { d with entries := entries, readers := d.readers.set i r } := by
  refine ⟨hentries, hinv.pending, hinv.deleted, fun r' hr' => ?_⟩
  rcases List.mem_or_eq_of_mem_set hr' with hold | rfl
  · exact (hinv.readers r' hold).extends (fun _ _ hat => hat) fun _ => Nat.le_refl _
  · exact hsound.extends (fun _ _ hat => hat) fun _ => Nat.le_refl _

omit [DecidableEq κ] in
/-- A write adds a version, and deletes to come for it. -/
theorem inv_wrote (hinv : d.Inv b lim) (w : ω) : State.Inv b lim { d with
    past := d.past ++ [d.store]
    store := b.write d.store w
    pending := d.pending ++ (b.touched d.store w).map fun k => (k, d.version + 1) } := by
  have hext := extends_write d (b.write d.store w)
    (d.pending ++ (b.touched d.store w).map fun k => (k, d.version + 1))
  have hversion : d.version ≤ (d.past ++ [d.store]).length := by
    rw [List.length_append]
    exact Nat.le_add_right _ _
  refine ⟨fun k v hget => (hinv.entries k v hget).extends hext (Nat.le_refl _), fun p hp => ?_,
    fun k => Nat.le_trans (hinv.deleted k) hversion,
    fun r hr => (hinv.readers r hr).extends hext fun _ => Nat.le_refl _⟩
  rcases List.mem_append.mp hp with hold | hnew
  · exact Nat.le_trans (hinv.pending p hold) hversion
  · obtain ⟨k, -, rfl⟩ := List.mem_map.mp hnew
    simp [State.version]

/-- A delete that succeeds asks more of the rows of its key, and none is cached. -/
theorem inv_deleted (hinv : d.Inv b lim) {i n : Nat} {k : κ} (hp : d.pending[i]? = some (k, n)) :
    State.Inv b lim { d with
      pending := d.pending.eraseIdx i
      entries := d.entries.delete (b.name k)
      deleted := fun j => if j = k then max (d.deleted j) n else d.deleted j } := by
  have hbound : n ≤ d.version := hinv.pending _ (List.mem_of_getElem? hp)
  refine ⟨fun j v hget => ?_, fun p hmem => hinv.pending p (List.mem_of_mem_eraseIdx hmem),
    fun j => ?_, fun r hr => (hinv.readers r hr).extends (fun _ _ hat => hat) fun j => ?_⟩
  · rw [Dict.get?_delete] at hget
    have hne : j ≠ k := by
      rintro rfl
      simp at hget
    have hname : b.name j ≠ b.name k := fun heq => hne (b.name_injective j k heq)
    rw [if_neg hname] at hget
    simp only [if_neg hne]
    exact (hinv.entries j v hget).extends (fun _ _ hat => hat) (Nat.le_refl _)
  · dsimp only
    split_ifs
    · exact Nat.max_le.mpr ⟨hinv.deleted j, hbound⟩
    · exact hinv.deleted j
  · dsimp only
    split_ifs
    · exact Nat.le_max_left _ _
    · exact Nat.le_refl _

omit [DecidableEq κ] in
/-- A row that is cached in time is recent enough. -/
theorem inv_filled (hlim : ∀ n, lim n ≤ n) (hinv : d.Inv b lim) {i n : Nat} {r : Reader κ ν} {v : ν}
    (hsound : r.Sound b lim d) (hphase : r.phase = .loaded (some v) n)
    (hn : lim (d.deleted r.key) ≤ n) :
    State.Inv b lim { d with
      entries := d.entries.set (b.name r.key) v
      readers := d.readers.set i { r with phase := .replied (some v) } } := by
  obtain ⟨-, s, hat, hview⟩ := hsound.loaded _ _ hphase
  refine hinv.read (hsound.reply (hsound.answer hlim hphase)) fun k u hget => ?_
  rw [Dict.get?_set] at hget
  split_ifs at hget with hname
  · cases b.name_injective k r.key hname
    cases hget
    exact ⟨n, s, hn, hat, hview⟩
  · exact hinv.entries k u hget

theorem step_inv (hlim : ∀ n, lim n ≤ n) (hmono : ∀ m n, m ≤ n → lim m ≤ lim n)
    (hinv : d.Inv b lim) (hwithin : Within lim d a) (h : step b d a = some d') : d'.Inv b lim := by
  have hreader : ∀ {i : Nat} {r}, d.readers[i]? = some r → r.Sound b lim d :=
    fun hr => hinv.readers _ (List.mem_of_getElem? hr)
  cases step_stepped b h with
  | wrote => exact inv_wrote hinv _
  | deleted hp => exact inv_deleted hinv hp
  | skipped =>
    exact ⟨hinv.entries, fun p hmem => hinv.pending p (List.mem_of_mem_eraseIdx hmem), hinv.deleted,
      fun r hr => (hinv.readers r hr).extends (fun _ _ hat => hat) fun _ => Nat.le_refl _⟩
  | expired =>
    refine ⟨fun k v hget => ?_, hinv.pending, hinv.deleted,
      fun r hr => (hinv.readers r hr).extends (fun _ _ hat => hat) fun _ => Nat.le_refl _⟩
    rw [Dict.get?_delete] at hget
    split_ifs at hget
    exact hinv.entries k v hget
  | @started key =>
    refine ⟨hinv.entries, hinv.pending, hinv.deleted, fun r hr => ?_⟩
    rcases List.mem_append.mp hr with hold | hnew
    · exact (hinv.readers r hold).extends (fun _ _ hat => hat) fun _ => Nat.le_refl _
    · rw [List.mem_singleton.mp hnew]
      exact ⟨Nat.le_refl _, fun _ _ hphase => (by cases hphase), fun _ hphase => by cases hphase⟩
  | @hit i ok r v hr hget =>
    have hrow : d.SinceVersion b (lim r.floor) r.key (some v) :=
      (hinv.entries r.key v hget).extends (fun _ _ hat => hat) (hmono _ _ (hreader hr).floor)
    exact hinv.read ((hreader hr).reply hrow) hinv.entries
  | @missed i ok r hr =>
    have hsound : Reader.Sound b lim d { r with phase := .missed } :=
      ⟨(hreader hr).floor, fun _ _ hphase => (by cases hphase), fun _ hphase => by cases hphase⟩
    exact hinv.read hsound hinv.entries
  | @loaded i r hr =>
    have hsound : Reader.Sound b lim d
        { r with phase := .loaded (b.view d.store r.key) d.version } := by
      refine ⟨(hreader hr).floor, fun row n hphase => ?_, fun _ hphase => by cases hphase⟩
      cases hphase
      exact ⟨Nat.le_trans (hreader hr).floor (hinv.deleted r.key), d.store, d.at_version, rfl⟩
    exact hinv.read hsound hinv.entries
  | @filled i r v n hr hphase =>
    have hversion : n ∈ r.version := by
      rw [Reader.version, hphase]
      rfl
    exact inv_filled hlim hinv (hreader hr) hphase (hwithin r hr n hversion)
  | @unfilled i ok r row n hr hphase =>
    exact hinv.read ((hreader hr).reply ((hreader hr).answer hlim hphase)) hinv.entries

omit [DecidableEq κ] in
theorem inv_start (s : σ) : State.Inv b lim (State.start s : State σ κ η ν) :=
  ⟨fun _ _ hget => (by cases hget), fun _ hp => (by cases hp), fun _ => Nat.zero_le _,
    fun _ hr => by cases hr⟩

end Invariant

section Runs

open Transition

variable {b} {s : σ} {d : State σ κ η ν} {as : List (Act κ η ω)}

/-- Where rows are cached in time, no reply is older than a finished write. -/
theorem exec_fresh (hm : Meets (step b) Timely (State.start s) as)
    (h : exec (step b) (State.start s) as = some d) : d.Fresh b := by
  have hinv : d.Inv b id :=
    exec_invariant_of_meets (State.Inv b id) (fun _ a _ hu hg hv =>
      step_inv (fun _ => Nat.le_refl _) (fun _ _ hle => hle) hu hg hv)
      (inv_start s) hm h
  exact fun r hr row hrow => (hinv.readers r hr).replied row (Reader.phase_of_reply hrow)

/-- Whatever is cached was a row of the store at some time. -/
theorem exec_genuine (h : exec (step b) (State.start s) as = some d) {k : κ} {v : ν}
    (hget : d.entries.get? (b.name k) = some v) : d.SinceVersion b 0 k (some v) := by
  have hinv : d.Inv b fun _ => 0 :=
    exec_invariant (State.Inv b fun _ => 0) (fun _ a _ hu hv =>
      step_inv (fun _ => Nat.zero_le _) (fun _ _ _ => Nat.le_refl _) hu (within_zero _ a) hv)
      (inv_start s) h
  exact hinv.entries k v hget

/-- What every write keeps, the whole history keeps. -/
theorem exec_history {R : σ → σ → Prop} (hrefl : ∀ t, R t t)
    (htrans : ∀ t u v, R t u → R u v → R t v) (hwrite : ∀ t w, R t (b.write t w))
    (h : exec (step b) (State.start s) as = some d) : ∀ t ∈ d.past ++ [d.store], R t d.store := by
  refine exec_invariant (fun d : State σ κ η ν => ∀ t ∈ d.past ++ [d.store], R t d.store)
    (fun d a d' hall hstep => ?_) (by simpa [State.start] using hrefl s) h
  cases step_stepped b hstep with
  | wrote =>
    intro t ht
    rcases List.mem_append.mp ht with hold | hnew
    · exact htrans _ _ _ (hall t hold) (hwrite _ _)
    · rw [List.mem_singleton.mp hnew]
      exact hrefl _
  | _ => exact hall

end Runs

section Serial

variable {b}

/-- Every entry is a row the store `was` to have, and the one it has unless its name is in
doubt. -/
structure Coherent (b : Backend σ κ η ν ω) (was : σ → Prop) (store : σ) (entries : Dict η ν)
    (doubt : η → Prop) : Prop where
  genuine : ∀ k v, entries.get? (b.name k) = some v → ∃ s, was s ∧ b.view s k = some v
  current : ∀ k v, entries.get? (b.name k) = some v → ¬ doubt (b.name k) →
    b.view store k = some v

variable {was was' : σ → Prop} {store : σ} {entries entries' : Dict η ν} {doubt doubt' : η → Prop}

omit [DecidableEq κ] in
/-- Entries may go, and with them the doubt. -/
theorem Coherent.shrink (h : Coherent b was store entries doubt)
    (hentries : ∀ m v, entries'.get? m = some v →
      entries.get? m = some v ∧ (doubt m → doubt' m)) :
    Coherent b was store entries' doubt' :=
  ⟨fun k v hget => h.genuine k v (hentries _ v hget).1,
    fun k v hget hdoubt => h.current k v (hentries _ v hget).1
      fun hold => hdoubt ((hentries _ v hget).2 hold)⟩

omit [DecidableEq κ] in
/-- The current row is cached. -/
theorem Coherent.set (h : Coherent b was store entries doubt) (hwas : was store) {k : κ} {v : ν}
    (hview : b.view store k = some v) (hdoubt : ∀ m, m ≠ b.name k → doubt m → doubt' m) :
    Coherent b was store (entries.set (b.name k) v) doubt' := by
  have hcases : ∀ j u, (entries.set (b.name k) v).get? (b.name j) = some u →
      (j = k ∧ u = v) ∨ (b.name j ≠ b.name k ∧ entries.get? (b.name j) = some u) := by
    intro j u hget
    rw [Dict.get?_set] at hget
    split_ifs at hget with hname
    · exact .inl ⟨b.name_injective j k hname, (Option.some.inj hget).symm⟩
    · exact .inr ⟨hname, hget⟩
  refine ⟨fun j u hget => ?_, fun j u hget hnew => ?_⟩
  · rcases hcases j u hget with ⟨rfl, rfl⟩ | ⟨-, hold⟩
    · exact ⟨store, hwas, hview⟩
    · exact h.genuine j u hold
  · rcases hcases j u hget with ⟨rfl, rfl⟩ | ⟨hname, hold⟩
    · exact hview
    · exact h.current j u hold fun hd => hnew (hdoubt _ hname hd)

omit [DecidableEq κ] in
/-- A write puts the rows it touches in doubt. -/
theorem Coherent.write (h : Coherent b was store entries doubt) (w : ω)
    (hwas : ∀ s, was s → was' s) (hdoubt : ∀ m, doubt m → doubt' m)
    (htouched : ∀ k ∈ b.touched store w, doubt' (b.name k)) :
    Coherent b was' (b.write store w) entries doubt' := by
  refine ⟨fun k v hget => ?_, fun k v hget hnew => ?_⟩
  · obtain ⟨s, hs, hview⟩ := h.genuine k v hget
    exact ⟨s, hwas s hs, hview⟩
  · have hview := h.current k v hget fun hold => hnew (hdoubt _ hold)
    exact b.frame store w k v hview fun hmem => hnew (htouched k hmem)

end Serial

end CacheAside
