import Mathlib.Data.List.FinRange
import Mathlib.Data.List.OfFn
import OrderMesh.Inventory.Transactions
import OrderMesh.Library.WaitFor

namespace OrderMesh.Inventory

open Transition WaitFor

/-- The database, and the row that each transaction waits for. -/
structure Locking where
  db : Db
  asked : Nat → Option Int

inductive LockAct
  | ask (tx : Nat) (productId : Int)
  | move (a : Act)

/-- The rows a locking select has not come to yet. -/
def Phase.todo : Phase → List Int
  | .locking _ todo _ => todo
  | _ => []

/-- The rows of a locking select. -/
def Phase.selected (ph : Phase) : List Int := ph.todo ++ ph.locks

def lockStep (d : Locking) : LockAct → Option Locking
  | .ask tx productId => do
      let t ← d.db.txs[tx]?
      if d.asked tx = none ∧ productId ∈ t.phase.todo then
        return { d with asked := Function.update d.asked tx (some productId) }
      else none
  | .move ⟨tx, .lock productId⟩ =>
      if d.asked tx = some productId then
        (step d.db ⟨tx, .lock productId⟩).map fun db =>
          ⟨db, Function.update d.asked tx none⟩
      else none
  | .move a => (step d.db a).map fun db => { d with db := db }

def Locking.start (s : Store) (calls : List Call) : Locking := ⟨Db.start s calls, fun _ => none⟩

namespace Locking

def Asks (d : Locking) (tx : Nat) (productId : Int) : Prop := d.asked tx = some productId

def Holds (d : Locking) (tx : Nat) (productId : Int) : Prop :=
  ∃ t, d.db.txs[tx]? = some t ∧ productId ∈ t.phase.locks

def Wants (d : Locking) (tx : Nat) (productId : Int) : Prop :=
  ∃ t, d.db.txs[tx]? = some t ∧ productId ∈ t.phase.selected

instance (d : Locking) (tx : Nat) (productId : Int) : Decidable (d.Asks tx productId) :=
  inferInstanceAs (Decidable (_ = _))

instance (d : Locking) (tx : Nat) (productId : Int) : Decidable (d.Holds tx productId) :=
  decidable_of_iff (∃ t ∈ d.db.txs[tx]?, productId ∈ t.phase.locks) Iff.rfl

/-- A cycle of transactions, each waiting for a row that the next one has locked. -/
def Deadlocked (d : Locking) : Prop := WaitFor.Deadlocked d.Asks d.Holds

/-- Locking selects in a circle, each two neighbours with a product of their own. -/
def Circular (d : Locking) : Prop :=
  ∃ (n : Nat) (tx : Fin (n + 2) → Nat) (productId : Fin (n + 2) → Int),
    Circle d.Wants tx productId

end Locking

theorem step_eq_some {d d' : Db} {a : Act} :
    step d a = some d' ↔ ∃ t ph s, d.txs[a.tx]? = some t ∧ d.lockFree a.move = true ∧
      advance d.store t.call t.phase a.move = some (ph, s) ∧
        d' = ⟨s, d.txs.set a.tx ⟨t.call, ph⟩⟩ := by
  unfold step
  cases ht : d.txs[a.tx]? with
  | none => simp
  | some t =>
    by_cases hfree : d.lockFree a.move = true
    · simp [hfree, eq_comm]
    · simp [hfree]

/-- Everything one step can be: a row is asked for, or a transaction moves. -/
inductive LockStepped (d : Locking) : LockAct → Locking → Prop
  | asked {tx productId t} (ht : d.db.txs[tx]? = some t) (hnone : d.asked tx = none)
      (htodo : productId ∈ t.phase.todo) :
      LockStepped d (.ask tx productId)
        { d with asked := Function.update d.asked tx (some productId) }
  | locked {tx productId db} (hasked : d.asked tx = some productId)
      (hstep : step d.db ⟨tx, .lock productId⟩ = some db) :
      LockStepped d (.move ⟨tx, .lock productId⟩) ⟨db, Function.update d.asked tx none⟩
  | moved {a db} (hmove : ∀ productId, a.move ≠ .lock productId)
      (hstep : step d.db a = some db) : LockStepped d (.move a) { d with db := db }

theorem lockStep_cases {d d' : Locking} {a : LockAct} (h : lockStep d a = some d') :
    LockStepped d a d' := by
  unfold lockStep at h
  split at h
  · simp only [bind, Option.bind_eq_some_iff] at h
    obtain ⟨t, ht, heq⟩ := h
    split_ifs at heq with hcond
    cases heq
    exact .asked ht hcond.1 hcond.2
  · split_ifs at h with hasked
    obtain ⟨db, hstep, rfl⟩ := Option.map_eq_some_iff.mp h
    exact .locked hasked hstep
  · rename_i a hmove
    obtain ⟨db, hstep, rfl⟩ := Option.map_eq_some_iff.mp h
    refine .moved ?_ hstep
    intro productId heq
    exact hmove a.tx productId (by rw [← heq])

theorem lockStep_asked {d : Locking} {tx : Nat} {productId : Int} {t : Tx}
    (ht : d.db.txs[tx]? = some t) (hnone : d.asked tx = none) (htodo : productId ∈ t.phase.todo) :
    lockStep d (.ask tx productId) =
      some { d with asked := Function.update d.asked tx (some productId) } := by
  simp [lockStep, ht, hnone, htodo]

theorem lockStep_locked {d : Locking} {tx : Nat} {productId : Int} {db : Db}
    (hasked : d.asked tx = some productId)
    (hstep : step d.db ⟨tx, .lock productId⟩ = some db) :
    lockStep d (.move ⟨tx, .lock productId⟩) = some ⟨db, Function.update d.asked tx none⟩ := by
  simp [lockStep, hasked, hstep]

theorem lockStep_moved {d : Locking} {a : Act} {db : Db}
    (hmove : ∀ productId, a.move ≠ .lock productId) (hstep : step d.db a = some db) :
    lockStep d (.move a) = some { d with db := db } := by
  obtain ⟨tx, m⟩ := a
  cases m with
  | lock productId => exact absurd rfl (hmove productId)
  | _ => simp [lockStep, hstep]

/-- The rows to come are different from each other and from the locked ones. -/
def Phase.Apart (ph : Phase) : Prop := ph.todo.Nodup ∧ ∀ k ∈ ph.todo, k ∉ ph.locks

theorem nodup_wanted (c : Call) (rows : List (Int × InventoryReservation)) :
    (c.wanted rows).Nodup := by
  cases c with
  | createProduct id payload => exact List.nodup_nil
  | reserveForOrder orderId items => exact (wantedOf items).nodup
  | releaseForOrder orderId => exact List.nodup_dedup _

theorem Moved.apart {s s' : Store} {c : Call} {ph ph' : Phase} {m : Move}
    (h : Moved s c ph m ph' s') (hph : ph.Apart) : ph'.Apart := by
  have hnil {ph : Phase} (htodo : ph.todo = []) : ph.Apart := by
    rw [Phase.Apart, htodo]
    exact ⟨List.nodup_nil, fun k hk => absurd hk List.not_mem_nil⟩
  cases h with
  | snapshot =>
    exact ⟨(nodup_wanted _ _).filter _, fun k _ hk => absurd hk List.not_mem_nil⟩
  | @locked call rows todo products productId product hmem hget =>
    obtain ⟨hnodup, hapart⟩ := hph
    refine ⟨hnodup.erase productId, ?_⟩
    intro k hk hlocked
    obtain ⟨hne, hold⟩ := hnodup.mem_erase_iff.mp hk
    rcases (products.mem_keys_set productId k product).mp hlocked with hkey | heq
    · exact hapart k hold hkey
    · exact hne heq
  | _ => exact hnil rfl

theorem Moved.unfinished {s s' : Store} {c : Call} {ph ph' : Phase} {m : Move}
    (h : Moved s c ph m ph' s') : ph.result = none := by
  cases h <;> rfl

theorem unfinished_of_selected {ph : Phase} {k : Int} (h : k ∈ ph.selected) : ph.result = none := by
  cases ph with
  | finished ret => cases h
  | _ => rfl

theorem locks_of_finished {ph : Phase} (h : ph.result ≠ none) : ph.locks = [] := by
  cases ph with
  | finished ret => rfl
  | _ => exact absurd rfl h

/-- Only a lock step moves a transaction with rows to come. -/
theorem Moved.todo_nil {s s' : Store} {c : Call} {ph ph' : Phase} {m : Move}
    (h : Moved s c ph m ph' s') (hm : ∀ productId, m ≠ .lock productId) : ph.todo = [] := by
  cases h with
  | @locked call rows todo products productId product hmem hget => exact absurd rfl (hm productId)
  | _ => rfl

namespace Locking

structure Sound (d : Locking) : Prop where
  locks : LockDiscipline d.db
  asked : ∀ tx productId, d.asked tx = some productId →
    ∃ t, d.db.txs[tx]? = some t ∧ productId ∈ t.phase.todo
  apart : ∀ (tx : Nat) (t : Tx), d.db.txs[tx]? = some t → t.phase.Apart

theorem sound_start (s : Store) (calls : List Call) : (start s calls).Sound where
  locks := lockDiscipline_start s calls
  asked tx productId h := by cases h
  apart tx t ht := by
    obtain ⟨c, -, rfl⟩ := List.mem_map.mp (List.mem_of_getElem? ht)
    exact ⟨List.nodup_nil, fun k hk => absurd hk List.not_mem_nil⟩

theorem update_cases {asked : Nat → Option Int} {tx i : Nat} {row : Option Int} {k : Int}
    (h : Function.update asked tx row i = some k) :
    (i = tx ∧ row = some k) ∨ (i ≠ tx ∧ asked i = some k) := by
  by_cases hi : i = tx
  · subst hi
    rw [Function.update_self] at h
    exact .inl ⟨rfl, h⟩
  · rw [Function.update_of_ne hi] at h
    exact .inr ⟨hi, h⟩

theorem sound_apart {d : Locking} {db : Db} {a : Act} (hd : d.Sound) (h : step d.db a = some db) :
    ∀ (tx : Nat) (t : Tx), db.txs[tx]? = some t → t.phase.Apart := by
  obtain ⟨t, ph, s, ht, -, hmoved, rfl⟩ := step_moved h
  intro tx u hu
  rcases Pool.getElem?_set_cases hu with ⟨-, rfl⟩ | ⟨-, hold⟩
  · exact hmoved.apart (hd.apart a.tx t ht)
  · exact hd.apart tx u hold

theorem Sound.step {d d' : Locking} {a : LockAct} (hd : d.Sound) (h : lockStep d a = some d') :
    d'.Sound := by
  cases lockStep_cases h with
  | @asked tx productId t ht hnone htodo =>
    refine ⟨hd.locks, ?_, hd.apart⟩
    intro i k hk
    rcases update_cases hk with ⟨rfl, heq⟩ | ⟨-, hold⟩
    · exact ⟨t, ht, Option.some.inj heq ▸ htodo⟩
    · exact hd.asked i k hold
  | @locked tx productId db hasked hstep =>
    refine ⟨step_lockDiscipline hd.locks hstep, ?_, sound_apart hd hstep⟩
    intro i k hk
    rcases update_cases hk with ⟨-, heq⟩ | ⟨hi, hold⟩
    · cases heq
    · obtain ⟨t, ph, s, ht, -, -, rfl⟩ := step_moved hstep
      obtain ⟨u, hu, htodo⟩ := hd.asked i k hold
      exact ⟨u, (List.getElem?_set_ne (Ne.symm hi)).trans hu, htodo⟩
  | @moved a db hmove hstep =>
    refine ⟨step_lockDiscipline hd.locks hstep, ?_, sound_apart hd hstep⟩
    intro i k hk
    obtain ⟨t, ph, s, ht, -, hmoved, rfl⟩ := step_moved hstep
    obtain ⟨u, hu, htodo⟩ := hd.asked i k hk
    by_cases hi : i = a.tx
    · subst hi
      cases ht.symm.trans hu
      rw [hmoved.todo_nil hmove] at htodo
      cases htodo
    · exact ⟨u, (List.getElem?_set_ne (Ne.symm hi)).trans hu, htodo⟩

theorem exec_sound {s : Store} {calls : List Call} {acts : List LockAct} {d : Locking}
    (h : exec lockStep (start s calls) acts = some d) : d.Sound :=
  exec_invariant Sound (fun _ _ _ hd hs => hd.step hs) (sound_start s calls) h

/-- One row is asked for at a time, and locks exclude each other. -/
theorem Sound.exclusive {d : Locking} (hd : d.Sound) : Exclusive d.Asks d.Holds where
  asked hr hs := Option.some.inj (hr.symm.trans hs)
  held := by
    rintro i j k ⟨t, ht, hk⟩ ⟨u, hu, hk'⟩
    exact hd.locks.exclusive i j t u ht hu k hk hk'
  apart := by
    rintro i k hasks ⟨t, ht, hk⟩
    obtain ⟨u, hu, htodo⟩ := hd.asked i k hasks
    cases ht.symm.trans hu
    exact (hd.apart i t ht).2 k htodo hk

/-- Selects that wait for each other are in a circle. -/
theorem Sound.circular {d : Locking} (hd : d.Sound) (hdead : d.Deadlocked) : d.Circular := by
  refine hd.exclusive.circle ?_ ?_ hdead
  · intro i k hasks
    obtain ⟨t, ht, htodo⟩ := hd.asked i k hasks
    exact ⟨t, ht, List.mem_append_left _ htodo⟩
  · rintro i k ⟨t, ht, hk⟩
    exact ⟨t, ht, List.mem_append_right _ hk⟩

/-- An unfinished transaction, before it asked for its rows. -/
inductive Unlocks : Phase → Phase → Prop
  | ready : Unlocks .ready .ready
  | checked {rows} : Unlocks (.checked rows) (.checked rows)
  | locking {rows todo products all} (h : ∀ k ∈ todo ++ products.keys, k ∈ all) :
      Unlocks (.locking rows todo products) (.locking rows all .empty)

theorem Unlocks.locks {ph ph' : Phase} (h : Unlocks ph ph') : ph'.locks = [] := by
  cases h <;> rfl

/-- The second state is the first one, but the given transactions have not asked for any
row. -/
structure Unlocked (given : Nat → Prop) (d e : Locking) : Prop where
  store : e.db.store = d.db.store
  length : e.db.txs.length = d.db.txs.length
  asked : ∀ i, (given i → e.asked i = none) ∧ (¬ given i → e.asked i = d.asked i)
  txs : ∀ (i : Nat) (t : Tx), d.db.txs[i]? = some t → ∃ ph, e.db.txs[i]? = some ⟨t.call, ph⟩ ∧
    (given i → Unlocks t.phase ph) ∧ (¬ given i → ph = t.phase)

section

variable {given : Nat → Prop} {d e d' : Locking}

theorem Unlocked.tx (h : Unlocked given d e) {i : Nat} {u : Tx} (hu : e.db.txs[i]? = some u) :
    ∃ t, d.db.txs[i]? = some t ∧ u.call = t.call ∧ (given i → Unlocks t.phase u.phase) ∧
      (¬ given i → u.phase = t.phase) := by
  have hlt : i < d.db.txs.length := h.length ▸ (List.getElem?_eq_some_iff.mp hu).1
  obtain ⟨ph, hph, hgiven, hother⟩ := h.txs i d.db.txs[i] (List.getElem?_eq_getElem hlt)
  cases hu.symm.trans hph
  exact ⟨d.db.txs[i], List.getElem?_eq_getElem hlt, rfl, hgiven, hother⟩

theorem Unlocked.lockFree (h : Unlocked given d e) {m : Move} (hfree : d.db.lockFree m = true) :
    e.db.lockFree m = true := by
  cases m with
  | lock productId =>
    refine List.all_eq_true.mpr fun u hu => decide_eq_true fun hlocked => ?_
    obtain ⟨i, hi⟩ := List.mem_iff_getElem?.mp hu
    obtain ⟨t, ht, -, hgiven, hother⟩ := h.tx hi
    have hold := of_decide_eq_true (List.all_eq_true.mp hfree t (List.mem_of_getElem? ht))
    by_cases hin : given i
    · rw [(hgiven hin).locks] at hlocked
      cases hlocked
    · rw [hother hin] at hlocked
      exact hold hlocked
  | _ => rfl

/-- Both states move on, the transaction at `tx` in each its own way. -/
theorem Unlocked.set (h : Unlocked given d e) {tx : Nat} {c : Call} {ph ph' : Phase}
    {asked asked' : Nat → Option Int} (s : Store) (hgiven : given tx → Unlocks ph ph')
    (hother : ¬ given tx → ph' = ph)
    (hasked : ∀ i, (given i → asked' i = none) ∧ (¬ given i → asked' i = asked i)) :
    Unlocked given ⟨⟨s, d.db.txs.set tx ⟨c, ph⟩⟩, asked⟩
      ⟨⟨s, e.db.txs.set tx ⟨c, ph'⟩⟩, asked'⟩ where
  store := rfl
  length := by
    rw [List.length_set, List.length_set]
    exact h.length
  asked := hasked
  txs i t ht := by
    rcases Pool.getElem?_set_cases ht with ⟨rfl, rfl⟩ | ⟨hne, hold⟩
    · have hlt : i < e.db.txs.length := by
        rw [h.length, ← List.length_set]
        exact (List.getElem?_eq_some_iff.mp ht).1
      exact ⟨ph', List.getElem?_set_self hlt, hgiven, hother⟩
    · obtain ⟨ph₀, hph, hrest⟩ := h.txs i t hold
      exact ⟨ph₀, (List.getElem?_set_ne (Ne.symm hne)).trans hph, hrest⟩

theorem Unlocked.move (h : Unlocked given d e) {a : Act} {c : Call} {ph ph' : Phase} {s : Store}
    (hu : e.db.txs[a.tx]? = some ⟨c, ph⟩) (hfree : d.db.lockFree a.move = true)
    (hadv : advance d.db.store c ph a.move = some (ph', s)) :
    Inventory.step e.db a = some ⟨s, e.db.txs.set a.tx ⟨c, ph'⟩⟩ := by
  refine step_eq_some.mpr ⟨⟨c, ph⟩, ph', s, hu, h.lockFree hfree, ?_, rfl⟩
  rw [h.store]
  exact hadv

/-- Until it locks rows, a given transaction moves as it did. -/
theorem Unlocks.advance {s s' : Store} {c : Call} {ph ph₀ ph' : Phase} {m : Move}
    (h : Unlocks ph ph₀) (hm : ∀ productId, m ≠ .lock productId)
    (hadv : advance s c ph m = some (ph', s')) (hopen : ph'.result = none) :
    ph₀ = ph ∧ Unlocks ph' ph' := by
  have hmoved := advance_moved hadv
  cases h with
  | ready =>
    cases hmoved with
    | readNone hnil => exact ⟨rfl, .checked⟩
    | readRows hrows => exact ⟨rfl, .checked⟩
    | _ => cases hopen
  | checked =>
    cases hmoved with
    | snapshot => exact ⟨rfl, .locking fun k hk => by simpa using hk⟩
  | locking hall =>
    cases hmoved with
    | locked hmem hget => exact absurd rfl (hm _)
    | _ => cases hopen

/-- A row that is locked was one to come. -/
theorem Unlocks.lock {s s' : Store} {c : Call} {ph ph₀ ph' : Phase} {productId : Int}
    (h : Unlocks ph ph₀) (hmoved : Moved s c ph (.lock productId) ph' s') :
    Unlocks ph' ph₀ ∧ s' = s := by
  cases hmoved with
  | @locked call rows todo products productId product hmem hget =>
    cases h with
    | locking hall =>
      refine ⟨.locking fun k hk => ?_, rfl⟩
      rcases List.mem_append.mp hk with htodo | hlocked
      · exact hall k (List.mem_append_left _ (List.mem_of_mem_erase htodo))
      · rcases (products.mem_keys_set productId k product).mp hlocked with hkey | rfl
        · exact hall k (List.mem_append_right _ hkey)
        · exact hall k (List.mem_append_left _ hmem)

/-- What a given transaction asks for is left out. -/
theorem Unlocked.asked_given (h : Unlocked given d e) {tx : Nat} (htx : given tx) (row : Option Int)
    (i : Nat) : (given i → e.asked i = none) ∧
      (¬ given i → e.asked i = Function.update d.asked tx row i) := by
  refine ⟨(h.asked i).1, fun hi => ?_⟩
  have hne : i ≠ tx := fun heq => hi (heq ▸ htx)
  rw [Function.update_of_ne hne]
  exact (h.asked i).2 hi

/-- What another transaction asks for stays. -/
theorem Unlocked.asked_other (h : Unlocked given d e) {tx : Nat} (htx : ¬ given tx)
    (row : Option Int) (i : Nat) : (given i → Function.update e.asked tx row i = none) ∧
      (¬ given i → Function.update e.asked tx row i = Function.update d.asked tx row i) := by
  by_cases hi : i = tx
  · subst hi
    rw [Function.update_self, Function.update_self]
    exact ⟨fun hin => absurd hin htx, fun _ => rfl⟩
  · rw [Function.update_of_ne hi, Function.update_of_ne hi]
    exact h.asked i

/-- What a given transaction does once it asks for rows is left out; everything else
happens as it did. -/
theorem Unlocked.step (h : Unlocked given d e) {a : LockAct} (hstep : lockStep d a = some d')
    (hopen : ∀ (i : Nat) (t : Tx), given i → d'.db.txs[i]? = some t → t.phase.result = none) :
    ∃ acts e', exec lockStep e acts = some e' ∧ Unlocked given d' e' := by
  cases lockStep_cases hstep with
  | @asked tx productId t ht hnone htodo =>
    by_cases htx : given tx
    · exact ⟨[], e, rfl, h.store, h.length, h.asked_given htx (some productId), h.txs⟩
    · obtain ⟨ph, hph, -, hother⟩ := h.txs tx t ht
      have hasked := lockStep_asked (d := e) hph (((h.asked tx).2 htx).trans hnone)
        (by rw [hother htx]; exact htodo)
      exact ⟨_, _, exec_cons_eq_some.mpr ⟨_, hasked, exec_nil _⟩, h.store, h.length,
        h.asked_other htx (some productId), h.txs⟩
  | @locked tx productId db hasked hstep' =>
    obtain ⟨t, ph', s, ht, hfree, hadv, rfl⟩ := step_eq_some.mp hstep'
    obtain ⟨ph, hph, hgiven, hother⟩ := h.txs tx t ht
    by_cases htx : given tx
    · obtain ⟨hunlocks, rfl⟩ := (hgiven htx).lock (advance_moved hadv)
      refine ⟨[], e, exec_nil e, h.store, ?_, h.asked_given htx none, ?_⟩
      · rw [List.length_set]
        exact h.length
      · intro i u hu
        rcases Pool.getElem?_set_cases hu with ⟨rfl, rfl⟩ | ⟨-, hold⟩
        · exact ⟨ph, hph, fun _ => hunlocks, fun hin => absurd htx hin⟩
        · exact h.txs i u hold
    · rw [hother htx] at hph
      have hlock := lockStep_locked (d := e) (((h.asked tx).2 htx).trans hasked)
        (h.move hph hfree hadv)
      exact ⟨_, _, exec_cons_eq_some.mpr ⟨_, hlock, exec_nil _⟩,
        h.set s (fun hin => absurd hin htx) (fun _ => rfl) (h.asked_other htx none)⟩
  | @moved a db hmove hstep' =>
    obtain ⟨t, ph', s, ht, hfree, hadv, rfl⟩ := step_eq_some.mp hstep'
    obtain ⟨ph, hph, hgiven, hother⟩ := h.txs a.tx t ht
    have hsame : ph = t.phase ∧ (given a.tx → Unlocks ph' ph') := by
      by_cases htx : given a.tx
      · have hlt : a.tx < d.db.txs.length := (List.getElem?_eq_some_iff.mp ht).1
        have hph' := hopen a.tx ⟨t.call, ph'⟩ htx (List.getElem?_set_self hlt)
        obtain ⟨hold, hnew⟩ := (hgiven htx).advance hmove hadv hph'
        exact ⟨hold, fun _ => hnew⟩
      · exact ⟨hother htx, fun hin => absurd hin htx⟩
    rw [hsame.1] at hph
    have hmoved := lockStep_moved (d := e) hmove (h.move hph hfree hadv)
    exact ⟨_, _, exec_cons_eq_some.mpr ⟨_, hmoved, exec_nil _⟩,
      h.set s hsame.2 (fun _ => rfl) h.asked⟩

theorem unlocked_start (s : Store) (calls : List Call) :
    Unlocked given (start s calls) (start s calls) where
  store := rfl
  length := rfl
  asked _ := ⟨fun _ => rfl, fun _ => rfl⟩
  txs i t ht := by
    obtain ⟨c, -, rfl⟩ := List.mem_map.mp (List.mem_of_getElem? ht)
    exact ⟨.ready, ht, fun _ => .ready, fun _ => rfl⟩

/-- What is unfinished after a step was unfinished before it. -/
theorem unfinished_before {db db' : Db} {a : Act} (hstep : Inventory.step db a = some db')
    (hopen : ∀ (i : Nat) (t : Tx), given i → db'.txs[i]? = some t → t.phase.result = none)
    (i : Nat) (t : Tx) (hi : given i) (ht : db.txs[i]? = some t) : t.phase.result = none := by
  obtain ⟨u, ph, s, hu, -, hmoved, rfl⟩ := step_moved hstep
  by_cases heq : i = a.tx
  · subst heq
    cases ht.symm.trans hu
    exact hmoved.unfinished
  · exact hopen i t hi ((List.getElem?_set_ne (Ne.symm heq)).trans ht)

/-- A run leads to its last state also without the rows that its unfinished transactions
asked for. -/
theorem exec_unlocked (given : Nat → Prop) {s : Store} {calls : List Call} {acts : List LockAct}
    (hrun : exec lockStep (start s calls) acts = some d)
    (hopen : ∀ (i : Nat) (t : Tx), given i → d.db.txs[i]? = some t → t.phase.result = none) :
    ∃ acts' e, exec lockStep (start s calls) acts' = some e ∧ Unlocked given d e := by
  refine exec_invariant (fun u : Locking =>
    (∀ (i : Nat) (t : Tx), given i → u.db.txs[i]? = some t → t.phase.result = none) →
      ∃ acts' e, exec lockStep (start s calls) acts' = some e ∧ Unlocked given u e)
    ?_ ?_ hrun hopen
  · intro u a v ih hstep hopen
    have hbefore : ∀ (i : Nat) (t : Tx), given i → u.db.txs[i]? = some t →
        t.phase.result = none := by
      cases lockStep_cases hstep with
      | asked ht hnone htodo => exact hopen
      | locked hasked hmoved => exact unfinished_before hmoved hopen
      | moved hmove hmoved => exact unfinished_before hmoved hopen
    obtain ⟨before, e, hbefore, he⟩ := ih hbefore
    obtain ⟨after, e', hafter, he'⟩ := he.step hstep hopen
    exact ⟨before ++ after, e', exec_append_eq_some.mpr ⟨e, hbefore, hafter⟩, he'⟩
  · intro _
    exact ⟨[], start s calls, exec_nil _, unlocked_start s calls⟩

end

/-- The transaction is at its select and has not asked for a row. -/
def Selecting (e : Locking) (tx : Nat) (all : List Int) : Prop :=
  e.asked tx = none ∧ ∃ c rows, e.db.txs[tx]? = some ⟨c, .locking rows all .empty⟩

/-- The transaction has locked one row of its select. -/
def Took (e : Locking) (tx : Nat) (all : List Int) (productId : Int) : Prop :=
  e.asked tx = none ∧ ∃ c rows products,
    e.db.txs[tx]? = some ⟨c, .locking rows (all.erase productId) products⟩ ∧
      productId ∈ products.keys

/-- Nothing but the given transactions changes, nor the store. -/
structure Keeps (given : List Nat) (e e' : Locking) : Prop where
  store : e'.db.store = e.db.store
  asked : ∀ i ∉ given, e'.asked i = e.asked i
  txs : ∀ i ∉ given, e'.db.txs[i]? = e.db.txs[i]?

theorem take_one {e : Locking} {tx : Nat} {all : List Int} {productId : Int} {product : Product}
    (hselecting : e.Selecting tx all) (hmem : productId ∈ all)
    (hget : e.db.store.products.get? productId = some product)
    (hfree : ∀ u ∈ e.db.txs, productId ∉ u.phase.locks) :
    ∃ acts e', exec lockStep e acts = some e' ∧ e'.Took tx all productId ∧ Keeps [tx] e e' ∧
      ∀ u ∈ e'.db.txs, u ∈ e.db.txs ∨ u.phase.locks = [productId] := by
  obtain ⟨hnone, c, rows, hphase⟩ := hselecting
  have hask := lockStep_asked hphase hnone hmem
  have hadvance : advance e.db.store c (.locking rows all .empty) (.lock productId) =
      some (.locking rows (all.erase productId) (Dict.empty.set productId product),
        e.db.store) := by
    simp [advance, hmem, hget]
  have hlockFree : e.db.lockFree (.lock productId) = true :=
    List.all_eq_true.mpr fun u hu => decide_eq_true (hfree u hu)
  have hstep : Inventory.step e.db ⟨tx, .lock productId⟩ = some ⟨e.db.store, e.db.txs.set tx
      ⟨c, .locking rows (all.erase productId) (Dict.empty.set productId product)⟩⟩ :=
    step_eq_some.mpr ⟨⟨c, .locking rows all .empty⟩, _, _, hphase, hlockFree, hadvance, rfl⟩
  have hlock := lockStep_locked
    (d := { e with asked := Function.update e.asked tx (some productId) }) (by simp) hstep
  have hlt := (List.getElem?_eq_some_iff.mp hphase).1
  refine ⟨_, _, exec_cons_eq_some.mpr ⟨_, hask, exec_cons_eq_some.mpr ⟨_, hlock, exec_nil _⟩⟩,
    ⟨by simp, c, rows, _, List.getElem?_set_self hlt, by simp [Dict.mem_keys_set]⟩,
    ⟨rfl, fun i hi => ?_, fun i hi => ?_⟩, fun u hu => ?_⟩
  · have hne : i ≠ tx := fun heq => hi (List.mem_singleton.mpr heq)
    simp [Function.update_of_ne hne]
  · have hne : i ≠ tx := fun heq => hi (List.mem_singleton.mpr heq)
    exact List.getElem?_set_ne (Ne.symm hne)
  · rcases List.mem_or_eq_of_mem_set hu with hold | rfl
    · exact .inl hold
    · exact .inr rfl

/-- Different transactions lock different rows that nobody holds. -/
theorem take_all (all : Nat → List Int) {l : List (Nat × Int)} {e : Locking}
    (htxs : (l.map Prod.fst).Nodup) (hrows : (l.map Prod.snd).Nodup)
    (hselecting : ∀ p ∈ l, e.Selecting p.1 (all p.1) ∧ p.2 ∈ all p.1)
    (hproducts : ∀ p ∈ l, p.2 ∈ e.db.store.products.keys)
    (hfree : ∀ p ∈ l, ∀ u ∈ e.db.txs, p.2 ∉ u.phase.locks) :
    ∃ acts e', exec lockStep e acts = some e' ∧ (∀ p ∈ l, e'.Took p.1 (all p.1) p.2) ∧
      Keeps (l.map Prod.fst) e e' := by
  induction l generalizing e with
  | nil =>
    exact ⟨[], e, exec_nil e, fun p hp => absurd hp List.not_mem_nil,
      ⟨rfl, fun _ _ => rfl, fun _ _ => rfl⟩⟩
  | cons p l ih =>
    obtain ⟨htx, htxs⟩ := List.nodup_cons.mp htxs
    obtain ⟨hrow, hrows⟩ := List.nodup_cons.mp hrows
    obtain ⟨⟨hselect, hmem⟩, hselecting⟩ := List.forall_mem_cons.mp hselecting
    obtain ⟨hproduct, hproducts⟩ := List.forall_mem_cons.mp hproducts
    obtain ⟨hfirst, hfree⟩ := List.forall_mem_cons.mp hfree
    obtain ⟨product, hget⟩ := Option.isSome_iff_exists.mp
      ((e.db.store.products.mem_keys_iff p.2).mp hproduct)
    obtain ⟨acts, e₁, hrun, htook, hkeeps, hlocks⟩ := take_one hselect hmem hget hfirst
    have hother {q : Nat × Int} (hq : q ∈ l) : q.1 ∉ [p.1] := by
      intro heq
      rw [← List.mem_singleton.mp heq] at htx
      exact htx (List.mem_map_of_mem hq)
    obtain ⟨acts', e', hrun', htook', hkeeps'⟩ := ih (e := e₁) htxs hrows
      (fun q hq => ⟨by
        obtain ⟨hnone, c, rows, hphase⟩ := (hselecting q hq).1
        exact ⟨(hkeeps.asked q.1 (hother hq)).trans hnone, c, rows,
          (hkeeps.txs q.1 (hother hq)).trans hphase⟩, (hselecting q hq).2⟩)
      (fun q hq => hkeeps.store ▸ hproducts q hq)
      (fun q hq u hu => by
        rcases hlocks u hu with hold | hnew
        · exact hfree q hq u hold
        · rw [hnew, List.mem_singleton]
          intro heq
          exact hrow (heq ▸ List.mem_map_of_mem hq))
    refine ⟨acts ++ acts', e', exec_append_eq_some.mpr ⟨e₁, hrun, hrun'⟩, ?_, ?_⟩
    · refine List.forall_mem_cons.mpr ⟨?_, htook'⟩
      obtain ⟨hnone, c, rows, products, hphase, hlocked⟩ := htook
      exact ⟨(hkeeps'.asked p.1 htx).trans hnone, c, rows, products,
        (hkeeps'.txs p.1 htx).trans hphase, hlocked⟩
    · refine ⟨hkeeps'.store.trans hkeeps.store, fun i hi => ?_, fun i hi => ?_⟩
      · obtain ⟨hne, hnot⟩ := not_or.mp (List.mem_cons.not.mp hi)
        exact (hkeeps'.asked i hnot).trans (hkeeps.asked i (by simpa using hne))
      · obtain ⟨hne, hnot⟩ := not_or.mp (List.mem_cons.not.mp hi)
        exact (hkeeps'.txs i hnot).trans (hkeeps.txs i (by simpa using hne))

/-- Different transactions ask for a row each. -/
theorem ask_all {l : List (Nat × Int)} {e : Locking} (htxs : (l.map Prod.fst).Nodup)
    (hready : ∀ p ∈ l, e.asked p.1 = none ∧ ∃ t, e.db.txs[p.1]? = some t ∧ p.2 ∈ t.phase.todo) :
    ∃ acts e', exec lockStep e acts = some e' ∧ e'.db = e.db ∧
      (∀ p ∈ l, e'.asked p.1 = some p.2) ∧ ∀ i ∉ l.map Prod.fst, e'.asked i = e.asked i := by
  induction l generalizing e with
  | nil => exact ⟨[], e, exec_nil e, rfl, fun p hp => absurd hp List.not_mem_nil, fun _ _ => rfl⟩
  | cons p l ih =>
    obtain ⟨htx, htxs⟩ := List.nodup_cons.mp htxs
    obtain ⟨⟨hnone, t, ht, htodo⟩, hready⟩ := List.forall_mem_cons.mp hready
    have hask := lockStep_asked ht hnone htodo
    have hother {q : Nat × Int} (hq : q ∈ l) : q.1 ≠ p.1 := by
      intro heq
      rw [← heq] at htx
      exact htx (List.mem_map_of_mem hq)
    obtain ⟨acts, e', hrun, hdb, hasked, hkeeps⟩ :=
      ih (e := { e with asked := Function.update e.asked p.1 (some p.2) }) htxs fun q hq =>
        ⟨(Function.update_of_ne (hother hq) _ _).trans (hready q hq).1, (hready q hq).2⟩
    refine ⟨.ask p.1 p.2 :: acts, e', exec_cons_eq_some.mpr ⟨_, hask, hrun⟩, hdb, ?_, ?_⟩
    · refine List.forall_mem_cons.mpr ⟨?_, hasked⟩
      rw [hkeeps p.1 htx]
      exact Function.update_self _ _ _
    · intro i hi
      obtain ⟨hne, hnot⟩ := not_or.mp (List.mem_cons.not.mp hi)
      rw [hkeeps i hnot]
      exact Function.update_of_ne hne _ _

/-- From a circle of selects that hold no row, a run leads to a deadlock. -/
theorem deadlock_of_circle {e : Locking} {all : Nat → List Int} {n : Nat}
    {tx : Fin (n + 2) → Nat} {productId : Fin (n + 2) → Int}
    (hcircle : Circle (fun i k => e.Selecting i (all i) ∧ k ∈ all i) tx productId)
    (hproducts : ∀ i, productId i ∈ e.db.store.products.keys)
    (hfree : ∀ u ∈ e.db.txs, u.phase.locks = []) :
    ∃ acts e', exec lockStep e acts = some e' ∧ e'.Deadlocked := by
  have hnext : Function.Injective fun i : Fin (n + 2) => tx (i + 1) :=
    hcircle.members.comp (add_left_injective 1)
  obtain ⟨acts, e₁, hrun, htook, -⟩ := take_all all (e := e)
    (l := List.ofFn fun i => (tx (i + 1), productId i))
    (by rw [List.map_ofFn]; exact List.nodup_ofFn.mpr hnext)
    (by rw [List.map_ofFn]; exact List.nodup_ofFn.mpr hcircle.rows)
    (by rw [List.forall_mem_ofFn_iff]; exact hcircle.next)
    (by rw [List.forall_mem_ofFn_iff]; exact hproducts)
    (by
      rw [List.forall_mem_ofFn_iff]
      intro i u hu
      rw [hfree u hu]
      exact List.not_mem_nil)
  rw [List.forall_mem_ofFn_iff] at htook
  obtain ⟨acts', e', hrun', hdb, hasked, -⟩ := ask_all (e := e₁)
    (l := List.ofFn fun i => (tx (i + 1), productId (i + 1)))
    (by rw [List.map_ofFn]; exact List.nodup_ofFn.mpr hnext)
    (by
      rw [List.forall_mem_ofFn_iff]
      intro i
      obtain ⟨hnone, c, rows, products, hphase, -⟩ := htook i
      have hne : productId (i + 1) ≠ productId i := by
        intro heq
        have hone := hcircle.rows heq
        rw [add_eq_left] at hone
        exact absurd hone (by simp)
      exact ⟨hnone, _, hphase, (List.mem_erase_of_ne hne).mpr (hcircle.own (i + 1)).2⟩)
  rw [List.forall_mem_ofFn_iff] at hasked
  refine ⟨acts ++ acts', e', exec_append_eq_some.mpr ⟨e₁, hrun, hrun'⟩,
    deadlocked_of_circle (t := tx) (r := productId) (fun i => ?_) fun i => ?_⟩
  · have hi := hasked (i - 1)
    rw [sub_add_cancel] at hi
    exact hi
  · obtain ⟨-, c, rows, products, hphase, hlocked⟩ := htook i
    exact ⟨⟨c, .locking rows _ products⟩, hdb ▸ hphase, hlocked⟩

/-- A circle of selects makes a deadlock possible: all their locks are left out of the
run, and then taken around the circle. -/
theorem deadlock_of_circular {s : Store} {calls : List Call} {acts : List LockAct} {d : Locking}
    (hrun : exec lockStep (start s calls) acts = some d) (hcircular : d.Circular) :
    ∃ acts' e, exec lockStep (start s calls) acts' = some e ∧ e.Deadlocked := by
  obtain ⟨n, tx, productId, hcircle⟩ := hcircular
  obtain ⟨before, e, hbefore, he⟩ := exec_unlocked
    (fun i => ∀ t, d.db.txs[i]? = some t → t.phase.result = none) hrun fun i t hi ht => hi t ht
  have hsound := exec_sound hbefore
  have hselecting (i : Nat) (k : Int) (hwants : d.Wants i k) :
      e.Selecting i ((e.db.txs[i]?.map fun u => u.phase.todo).getD []) ∧
        k ∈ (e.db.txs[i]?.map fun u => u.phase.todo).getD [] := by
    obtain ⟨t, ht, hk⟩ := hwants
    have hgiven : ∀ u, d.db.txs[i]? = some u → u.phase.result = none := by
      intro u hu
      cases ht.symm.trans hu
      exact unfinished_of_selected hk
    obtain ⟨ph, hph, hunlocks, -⟩ := he.txs i t ht
    rw [hph]
    have hphase := hunlocks hgiven
    generalize t.phase = before at hk hphase
    cases hphase with
    | ready => cases hk
    | checked => cases hk
    | locking hall => exact ⟨⟨(he.asked i).1 hgiven, _, _, hph⟩, hall k hk⟩
  have hlocks : ∀ u ∈ e.db.txs, u.phase.locks = [] := by
    intro u hu
    obtain ⟨i, hi⟩ := List.mem_iff_getElem?.mp hu
    obtain ⟨t, ht, -, hgiven, hother⟩ := he.tx hi
    by_cases hopen : ∀ t, d.db.txs[i]? = some t → t.phase.result = none
    · exact (hgiven hopen).locks
    · rw [hother hopen]
      exact locks_of_finished fun hnone => hopen fun v hv => by
        cases ht.symm.trans hv
        exact hnone
  have hproducts (i : Fin (n + 2)) : productId i ∈ e.db.store.products.keys := by
    obtain ⟨⟨-, c, rows, hphase⟩, hmem⟩ := hselecting _ _ (hcircle.own i)
    exact ((hsound.locks.current _ _ hphase).2 _ hmem).2
  obtain ⟨after, e', hafter, hdead⟩ := deadlock_of_circle (hcircle.mono hselecting) hproducts hlocks
  exact ⟨before ++ after, e', exec_append_eq_some.mpr ⟨e, hbefore, hafter⟩, hdead⟩

end Locking

/-- A state without a circle of selects is not deadlocked, and the calls are free of
deadlocks exactly when none of their runs comes to a circle. -/
theorem deadlock_free_iff (s : Store) (calls : List Call) :
    (∀ acts d, exec lockStep (Locking.start s calls) acts = some d →
      ¬ d.Circular → ¬ d.Deadlocked) ∧
    ((∀ acts d, exec lockStep (Locking.start s calls) acts = some d → ¬ d.Deadlocked) ↔
      ∀ acts d, exec lockStep (Locking.start s calls) acts = some d → ¬ d.Circular) := by
  have hstate : ∀ acts d, exec lockStep (Locking.start s calls) acts = some d →
      ¬ d.Circular → ¬ d.Deadlocked := fun acts d hrun hnot hdead =>
    hnot ((Locking.exec_sound hrun).circular hdead)
  refine ⟨hstate, ?_, ?_⟩
  · intro h acts d hrun hcircular
    obtain ⟨acts', e, hrun', hdead⟩ := Locking.deadlock_of_circular hrun hcircular
    exact h acts' e hrun' hdead
  · intro h acts d hrun
    exact hstate acts d hrun (h acts d hrun)

/-- Two orders for the same two products. -/
def crossedOrders : List Call :=
  [.reserveForOrder 1 [⟨1, 1⟩, ⟨2, 1⟩], .reserveForOrder 2 [⟨1, 1⟩, ⟨2, 1⟩]]

/-- The selects come to the two rows in opposite orders. -/
def crossedActs : List LockAct :=
  [.move ⟨0, .read⟩, .move ⟨1, .read⟩, .move ⟨0, .snapshot⟩, .move ⟨1, .snapshot⟩,
    .ask 0 1, .move ⟨0, .lock 1⟩, .ask 1 2, .move ⟨1, .lock 2⟩, .ask 0 2, .ask 1 1]

def gadget : ProductCreate where
  sku := "SKU2"
  name := "Gadget"
  quantityAvailable := 10
  sku_length := by decide
  name_length := by decide
  quantityAvailable_nonneg := widget.quantityAvailable_nonneg

def twoProducts : Store := runCalls .empty [.createProduct 1 widget, .createProduct 2 gadget]

theorem crossedOrders_deadlock :
    ∃ d, exec lockStep (Locking.start twoProducts crossedOrders) crossedActs = some d ∧
      d.Deadlocked := by
  have hsome : (exec lockStep (Locking.start twoProducts crossedOrders) crossedActs).isSome := by
    decide
  have hwaits : ∀ d ∈ exec lockStep (Locking.start twoProducts crossedOrders) crossedActs,
      d.Asks 0 2 ∧ d.Holds 1 2 ∧ d.Asks 1 1 ∧ d.Holds 0 1 := by decide
  obtain ⟨d, hd⟩ := Option.isSome_iff_exists.mp hsome
  obtain ⟨hask, hhold, hask', hhold'⟩ := hwaits d hd
  exact ⟨d, hd, 0, .tail (.single ⟨2, hask, hhold⟩) ⟨1, hask', hhold'⟩⟩

end OrderMesh.Inventory
