import OrderMesh.Inventory.Transactions
import OrderMesh.Library.Linearization

namespace OrderMesh.Inventory

open Linearization Transition

/-- At the read that starts a transaction, no other one of its order is running. -/
def Alone (d : Db) (a : Act) : Prop :=
  a.move = .read → ∀ t ∈ d.txs[a.tx]?,
    ∀ u ∈ d.txs, u.phase.active = true → u.call.orderId ≠ t.call.orderId

instance (d : Db) (a : Act) : Decidable (Alone d a) := inferInstanceAs (Decidable (_ → _))

/-- Every wanted product was there at the snapshot. -/
def Phase.Complete (c : Call) : Phase → Prop
  | .locking rows todo products => ∀ k ∈ c.wanted rows, k ∈ todo ∨ k ∈ products.keys
  | _ => True

instance (c : Call) : ∀ ph : Phase, Decidable (ph.Complete c)
  | .locking rows todo products =>
      List.decidableBAll (fun k => k ∈ todo ∨ k ∈ products.keys) (c.wanted rows)
  | .ready => instDecidableTrue
  | .checked _ => instDecidableTrue
  | .finished _ => instDecidableTrue

/-- The result that can no longer change. -/
def Phase.promise (c : Call) (ph : Phase) : Option Ret :=
  match ph with
  | .finished ret => some ret
  | .locking rows todo products =>
      if (Phase.locking rows todo products).Complete c then none else some (.reserved false)
  | _ => none

@[simp] theorem Phase.promise_finished (c : Call) (ret : Ret) :
    (Phase.finished ret).promise c = some ret := rfl

def Phase.RowsCurrent (s : Store) (c : Call) : Phase → Prop
  | .checked rows => c.RowsCurrent s rows
  | .locking rows _ _ => c.RowsCurrent s rows
  | _ => True

structure Interleaved (s₀ : Store) (d : Db) : Prop where
  locks : LockDiscipline d
  known : ∀ r ∈ d.store.reservations.rows, r.2.productId ∈ d.store.products.keys
  separate : ∀ (i j : Nat) (t u : Tx), d.txs[i]? = some t → d.txs[j]? = some u →
    t.phase.active = true → u.phase.active = true → t.call.orderId = u.call.orderId → i = j
  rows : ∀ (i : Nat) (t : Tx), d.txs[i]? = some t → t.phase.RowsCurrent d.store t.call
  whole : ∀ (i : Nat) (t : Tx), d.txs[i]? = some t →
    ∀ o, t.call = .releaseForOrder o → t.phase.Complete t.call
  linearized : Linearized Call.apply s₀
    (d.txs.map fun t => (t.call, t.phase.promise t.call)) d.store

variable {s s' : Store} {c : Call} {ph ph' : Phase} {m : Move}

theorem Moved.active (h : Moved s c ph m ph' s') (ha : ph'.active = true) :
    ph.active = true ∨ m = .read := by
  cases h with
  | inserted | readDone | readEmpty | reserved | released => cases ha
  | readNone | readRows => exact .inr rfl
  | snapshot | locked => exact .inl rfl

/-- A step changes only the rows of its own order. -/
theorem Moved.reservationsOf (h : Moved s c ph m ph' s') (hrows : ph.RowsCurrent s c) {o : Int}
    (ho : ph.active = true → c.orderId ≠ some o) : s'.reservationsOf o = s.reservationsOf o := by
  cases h with
  | inserted hcreate =>
    obtain ⟨-, -, -, rfl⟩ := createProduct_eq_some hcreate
    rfl
  | @reserved orderId items rows products =>
    have hne : o ≠ orderId := fun heq => ho rfl (congrArg some heq.symm)
    unfold reserveLocked
    split_ifs
    · exact reservationsOf_reserved_other s items hne
    · rfl
  | @released orderId rows products =>
    have hne : o ≠ orderId := fun heq => ho rfl (congrArg some heq.symm)
    obtain ⟨rfl, -⟩ := hrows
    exact reservationsOf_released_other s hne
  | _ => rfl

theorem Moved.rowsCurrent (h : Moved s c ph m ph' s') (hrows : ph.RowsCurrent s c) :
    ph'.RowsCurrent s' c := by
  cases h with
  | readNone hnil => exact hnil
  | readRows hne => exact ⟨rfl, hne⟩
  | snapshot => exact hrows
  | locked => exact hrows
  | _ => trivial

theorem complete_lock {rows : List (Int × InventoryReservation)} {todo : List Int}
    {products : Dict Int Product} {p : Int} (product : Product) (hp : p ∈ todo) :
    (Phase.locking rows (todo.erase p) (products.set p product)).Complete c ↔
      (Phase.locking rows todo products).Complete c := by
  have herase : ∀ k, k ∈ todo.erase p ∨ k = p ↔ k ∈ todo := by
    intro k
    by_cases hk : k = p
    · simp [hk, hp]
    · simp [hk, List.mem_erase_of_ne hk]
  refine forall₂_congr fun k _ => ?_
  rw [Dict.mem_keys_set, ← herase k]
  tauto

/-- Every product an order's rows name exists, so a release finds all of them. -/
theorem Moved.whole (h : Moved s c ph m ph' s')
    (hknown : ∀ r ∈ s.reservations.rows, r.2.productId ∈ s.products.keys)
    (hrows : ph.RowsCurrent s c) (hwhole : ∀ o, c = .releaseForOrder o → ph.Complete c) :
    ∀ o, c = .releaseForOrder o → ph'.Complete c := by
  intro o hc
  cases h with
  | snapshot =>
    subst hc
    obtain ⟨rfl, -⟩ := hrows
    intro k hk
    obtain ⟨r, hr, rfl⟩ := List.mem_map.mp (List.mem_dedup.mp hk)
    have hin := hknown r (List.mem_filter.mp hr).1
    exact .inl (List.mem_filter.mpr ⟨hk, decide_eq_true hin⟩)
  | locked hmem => exact (complete_lock _ hmem).mpr (hwhole o hc)
  | _ => trivial

theorem not_covers_of_missing {items : List Item} {k : Int} (hk : k ∈ (wantedOf items).keys)
    (hmissing : k ∉ s.products.keys) : ¬ s.Covers items := by
  intro hcov
  obtain ⟨p, hp, -⟩ := hcov k ((mem_keys_wantedOf items k).mp hk)
  exact hmissing ((s.products.mem_keys_iff k).mpr (hp ▸ rfl))

theorem apply_reserve_refused {o : Int} {items : List Item} (hrows : s.reservationsOf o = [])
    (hcov : ¬ s.Covers items) :
    (Call.reserveForOrder o items).apply s = some (.reserved false, s) := by
  simp only [Call.apply, reserveForOrder_eq, if_pos hrows, if_neg hcov]

theorem covers_incomplete {wanted : Dict Int Int} {products : Dict Int Product} {k : Int}
    (hk : k ∈ wanted.keys) (hmissing : k ∉ products.keys) : covers wanted products = false := by
  obtain ⟨w, hw, rfl⟩ := List.mem_map.mp hk
  have hnone := (products.get?_eq_none_iff w.1).mpr hmissing
  apply Bool.eq_false_iff.mpr
  intro hall
  have hc := List.all_eq_true.mp hall w hw
  rw [hnone] at hc
  cases hc

/-- A step keeps the promise and the data, or is the linearisation point of its call. -/
theorem Moved.point (h : Moved s c ph m ph' s') (hlocks : ph.LocksCurrent s c)
    (hrows : ph.RowsCurrent s c)
    (hwhole' : ∀ o, c = .releaseForOrder o → ph'.Complete c)
    (hwhole : ∀ o, c = .releaseForOrder o → ph.Complete c) :
    (ph'.promise c = ph.promise c ∧ s' = s) ∨
      (ph.promise c = none ∧ ∃ r, ph'.promise c = some r ∧ c.apply s = some (r, s')) := by
  cases h with
  | inserted hcreate =>
    refine .inr ⟨rfl, _, rfl, ?_⟩
    simp only [Call.apply, hcreate, Option.map_some]
  | readNone hnil => exact .inl ⟨rfl, rfl⟩
  | readDone hne =>
    refine .inr ⟨rfl, _, rfl, ?_⟩
    simp only [Call.apply, reserveForOrder_eq, if_neg hne]
  | readEmpty hnil =>
    refine .inr ⟨rfl, _, rfl, ?_⟩
    simp only [Call.apply, releaseForOrder_eq, if_pos hnil]
  | readRows hne => exact .inl ⟨rfl, rfl⟩
  | @snapshot _ rows =>
    by_cases hall : (Phase.locking rows
        ((c.wanted rows).filter fun id => id ∈ s.products.keys) Dict.empty).Complete c
    · exact .inl ⟨if_pos hall, rfl⟩
    · refine .inr ⟨rfl, _, if_neg hall, ?_⟩
      cases c with
      | createProduct id payload => exact hrows.elim
      | releaseForOrder o => exact absurd (hwhole' o rfl) hall
      | reserveForOrder o items =>
        obtain ⟨k, hk, hmissing⟩ : ∃ k ∈ (wantedOf items).keys, k ∉ s.products.keys := by
          by_contra hno
          push Not at hno
          exact hall fun k hk => .inl (List.mem_filter.mpr ⟨hk, decide_eq_true (hno k hk)⟩)
        exact apply_reserve_refused hrows (not_covers_of_missing hk hmissing)
  | locked hmem hget =>
    refine .inl ⟨?_, rfl⟩
    unfold Phase.promise
    simp only [complete_lock _ hmem]
  | @reserved o items rows products =>
    by_cases hall : (Phase.locking rows [] products).Complete (.reserveForOrder o items)
    · refine .inr ⟨if_pos hall, _, rfl, ?_⟩
      have hloaded := hlocks.loaded fun k hk _ => (hall k hk).resolve_left (by simp)
      have hnil : s.reservationsOf o = [] := hrows
      simp only [Call.apply, reserveForOrder_eq, if_pos hnil]
      rw [reserveLocked_eq hloaded]
    · have hsome : ∃ k ∈ (wantedOf items).keys, k ∉ products.keys := by
        by_contra hno
        push Not at hno
        exact hall fun k hk => .inr (hno k hk)
      obtain ⟨k, hk, hmissing⟩ := hsome
      have hrefused : reserveLocked s o items products = (false, s) := by
        unfold reserveLocked
        rw [covers_incomplete hk hmissing]
        rfl
      refine .inl ⟨?_, by rw [hrefused]⟩
      rw [hrefused]
      exact (if_neg hall).symm
  | @released o rows products =>
    have hall := hwhole o rfl
    refine .inr ⟨if_pos hall, _, rfl, ?_⟩
    obtain ⟨rfl, hne⟩ := hrows
    have hloaded := hlocks.loaded fun k hk _ => (hall k hk).resolve_left (by simp)
    simp only [Call.apply, releaseForOrder_eq, if_neg hne]
    rw [commitRelease_eq hloaded]

theorem Moved.known (hlin : s' = s ∨ ∃ r, c.apply s = some (r, s'))
    (hknown : ∀ r ∈ s.reservations.rows, r.2.productId ∈ s.products.keys) :
    ∀ r ∈ s'.reservations.rows, r.2.productId ∈ s'.products.keys := by
  rcases hlin with rfl | ⟨r, hr⟩
  · exact hknown
  · have hrun : c.run s = s' := by rw [Call.run, hr]; rfl
    exact hrun ▸ c.run_known hknown

/-- Rows read by an unfinished transaction stay current while its order is left alone. -/
theorem Phase.RowsCurrent.frame (h : ph.RowsCurrent s c)
    (hrows : ph.active = true → ∀ o, c.orderId = some o →
      s'.reservationsOf o = s.reservationsOf o) : ph.RowsCurrent s' c := by
  have hcall : ∀ rows, ph.active = true → c.RowsCurrent s rows → c.RowsCurrent s' rows := by
    intro rows ha hr
    cases c with
    | createProduct => exact hr
    | reserveForOrder o items => exact (hrows ha o rfl).trans hr
    | releaseForOrder o => exact ⟨hr.1.trans (hrows ha o rfl).symm, hr.2⟩
  cases ph with
  | checked rows => exact hcall rows rfl h
  | locking rows todo products => exact hcall rows rfl h
  | _ => trivial

theorem interleaved_start (setup calls : List Call) :
    Interleaved (runCalls .empty setup) (Db.start (runCalls .empty setup) calls) := by
  have hready : ∀ (i : Nat) (t : Tx),
      (Db.start (runCalls .empty setup) calls).txs[i]? = some t → t.phase = .ready := by
    intro i t ht
    obtain ⟨c, -, rfl⟩ := List.mem_map.mp (List.mem_of_getElem? ht)
    rfl
  refine ⟨lockDiscipline_start _ _, runCalls_known setup, fun i j t u ht hu ha => ?_,
    fun i t ht => ?_, fun i t ht o _ => ?_, ?_⟩
  · rw [hready i t ht] at ha
    cases ha
  · rw [hready i t ht]
    trivial
  · rw [hready i t ht]
    trivial
  · have hstart : Linearized Call.apply (runCalls .empty setup) (calls.map fun c => (c, none))
        (runCalls .empty setup) := Linearized.start _ _
    simpa [Db.start, Function.comp_def, Phase.promise] using hstart

theorem step_interleaved {s₀ : Store} {d d' : Db} {a : Act} (hd : Interleaved s₀ d)
    (ha : Alone d a) (h : step d a = some d') : Interleaved s₀ d' := by
  have hlocks' := step_lockDiscipline hd.locks h
  obtain ⟨t, ph, s', ht, -, hmoved, rfl⟩ := step_moved h
  have hcur := hd.locks.current a.tx t ht
  have hrows := hd.rows a.tx t ht
  have hwhole := hd.whole a.tx t ht
  have hwhole' := hmoved.whole hd.known hrows hwhole
  have hpoint := hmoved.point hcur hrows hwhole' hwhole
  have hother : ∀ (i : Nat) (u : Tx), i ≠ a.tx → d.txs[i]? = some u → u.phase.active = true →
      (t.phase.active = true ∨ a.move = .read) → u.call.orderId ≠ t.call.orderId := by
    intro i u hi hu hua hta heq
    rcases hta with hta | hread
    · exact hi (hd.separate i a.tx u t hu ht hua hta heq)
    · exact ha hread t ht u (List.mem_of_getElem? hu) hua heq
  refine ⟨hlocks', ?_, fun i j v u hv hu hva hua heq => ?_, fun i v hv => ?_,
    fun i v hv => ?_, ?_⟩
  · apply Moved.known (c := t.call) ?_ hd.known
    rcases hpoint with ⟨-, hs⟩ | ⟨-, r, -, hr⟩
    · exact .inl hs
    · exact .inr ⟨r, hr⟩
  · rcases Pool.getElem?_set_cases hv with ⟨rfl, rfl⟩ | ⟨hi, hv⟩ <;>
      rcases Pool.getElem?_set_cases hu with ⟨rfl, rfl⟩ | ⟨hj, hu⟩
    · rfl
    · exact absurd heq.symm (hother j u hj hu hua (hmoved.active hva))
    · exact absurd heq (hother i v hi hv hva (hmoved.active hua))
    · exact hd.separate i j v u hv hu hva hua heq
  · rcases Pool.getElem?_set_cases hv with ⟨rfl, rfl⟩ | ⟨hi, hv⟩
    · exact hmoved.rowsCurrent hrows
    · refine (hd.rows i v hv).frame fun hva o ho => ?_
      refine hmoved.reservationsOf hrows fun hta heq => ?_
      exact hother i v hi hv hva (.inl hta) (ho.trans heq.symm)
  · rcases Pool.getElem?_set_cases hv with ⟨rfl, rfl⟩ | ⟨hi, hv⟩
    · exact hwhole'
    · exact hd.whole i v hv
  · rw [List.map_set]
    have hentry : (d.txs.map fun t => (t.call, t.phase.promise t.call))[a.tx]? =
        some (t.call, t.phase.promise t.call) := by
      rw [List.getElem?_map, ht]
      rfl
    rcases hpoint with ⟨hp, hs⟩ | ⟨hp, r, hr, happly⟩
    · obtain ⟨hlt, heq⟩ := List.getElem?_eq_some_iff.mp hentry
      rw [hp, hs, ← heq, List.set_getElem_self]
      exact hd.linearized
    · rw [hp] at hentry
      rw [hr]
      exact hd.linearized.point hentry happly

theorem results_promised {d : Db} (hdone : d.Finished) :
    (d.txs.map fun t => (t.call, t.phase.promise t.call)) =
      d.results.map fun r => (r.1, some r.2) := by
  have hall : ∀ t ∈ d.txs, ∃ r, t.phase = .finished r := by
    intro t ht
    obtain ⟨r, hr⟩ := Option.isSome_iff_exists.mp (hdone t ht)
    cases hph : t.phase with
    | finished ret => exact ⟨ret, rfl⟩
    | _ => rw [hph] at hr; cases hr
  unfold Db.results
  generalize d.txs = txs at hall
  induction txs with
  | nil => rfl
  | cons t ts ih =>
    obtain ⟨r, hr⟩ := hall t List.mem_cons_self
    have htail := ih fun u hu => hall u (List.mem_cons_of_mem t hu)
    simp only [List.map_cons, List.filterMap_cons, hr, Phase.result_finished,
      Phase.promise_finished, Option.map_some, htail]

/-- Every complete interleaving in which concurrent transactions concern different
orders leaves the tables and the results of a serial run of the same calls. -/
theorem transactions_serialisable (setup calls : List Call) (acts : List Act) (d : Db)
    (hrun : exec step (Db.start (runCalls .empty setup) calls) acts = some d)
    (halone : Meets step Alone (Db.start (runCalls .empty setup) calls) acts)
    (hdone : d.Finished) :
    d.results.map Prod.fst = calls ∧ ∃ order : List (Call × Ret), order.Perm d.results ∧
      Serial Call.apply (runCalls .empty setup) order d.store := by
  have hinv : Interleaved (runCalls .empty setup) d :=
    exec_invariant_of_meets (Interleaved (runCalls .empty setup))
      (fun _ _ _ hi ha hs => step_interleaved hi ha hs) (interleaved_start setup calls) halone hrun
  have hlin := hinv.linearized
  rw [results_promised hdone] at hlin
  have hcalls : d.results.map Prod.fst = calls := by
    rw [map_fst_results hdone, exec_calls hrun]
    simp [Db.start, Function.comp_def]
  exact ⟨hcalls, hlin.serialisable⟩

def twoOrders : List Call := [.reserveForOrder 1 [⟨1, 7⟩], .reserveForOrder 2 [⟨1, 7⟩]]

/-- Both orders read the stock before either has the lock. -/
def twoOrdersActs : List Act :=
  [⟨0, .read⟩, ⟨1, .read⟩, ⟨0, .snapshot⟩, ⟨1, .snapshot⟩, ⟨0, .lock 1⟩, ⟨0, .finish⟩,
    ⟨1, .lock 1⟩, ⟨1, .finish⟩]

theorem transactions_serialisable_twoOrders :
    ∃ d, exec step (Db.start (runCalls .empty [.createProduct 1 widget]) twoOrders) twoOrdersActs =
        some d ∧ d.Finished ∧
      (d.results.map Prod.fst = twoOrders ∧ ∃ order : List (Call × Ret), order.Perm d.results ∧
        Serial Call.apply (runCalls .empty [.createProduct 1 widget]) order d.store) := by
  have hsome : (exec step (Db.start (runCalls .empty [.createProduct 1 widget]) twoOrders)
      twoOrdersActs).isSome := by decide
  have halone : Meets step Alone (Db.start (runCalls .empty [.createProduct 1 widget]) twoOrders)
      twoOrdersActs := by decide
  have hfinal : ∀ d ∈ exec step (Db.start (runCalls .empty [.createProduct 1 widget]) twoOrders)
      twoOrdersActs, d.Finished := by decide
  obtain ⟨d, hd⟩ := Option.isSome_iff_exists.mp hsome
  have hdone : d.Finished := hfinal d hd
  exact ⟨d, hd, hdone, transactions_serialisable _ _ _ d hd halone hdone⟩

end OrderMesh.Inventory
