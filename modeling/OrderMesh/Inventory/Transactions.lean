import OrderMesh.Inventory.Calls
import OrderMesh.Library.Pool
import OrderMesh.Library.Transition

namespace OrderMesh.Inventory

inductive Phase
  | ready
  | checked (rows : List (Int × InventoryReservation))
  | locking (rows : List (Int × InventoryReservation)) (todo : List Int)
      (products : Dict Int Product)
  | finished (ret : Ret)
  deriving DecidableEq

structure Tx where
  call : Call
  phase : Phase

structure Db where
  store : Store
  txs : List Tx

inductive Move
  | insert
  | read
  | snapshot
  | lock (productId : Int)
  | finish
  deriving DecidableEq

/-- One database step of the transaction at position `tx`. -/
structure Act where
  tx : Nat
  move : Move

/-- The rows a transaction has locked. -/
def Phase.locks : Phase → List Int
  | .locking _ _ products => products.keys
  | _ => []

/-- Started and not yet ended. -/
def Phase.active : Phase → Bool
  | .ready => false
  | .checked _ => true
  | .locking .. => true
  | .finished _ => false

def Phase.result : Phase → Option Ret
  | .finished ret => some ret
  | _ => none

@[simp] theorem Phase.result_finished (ret : Ret) : (Phase.finished ret).result = some ret := rfl

def Call.orderId : Call → Option Int
  | .createProduct .. => none
  | .reserveForOrder orderId _ => some orderId
  | .releaseForOrder orderId => some orderId

/-- The ids in the locking select. -/
def Call.wanted (rows : List (Int × InventoryReservation)) : Call → List Int
  | .createProduct .. => []
  | .reserveForOrder _ items => (wantedOf items).keys
  | .releaseForOrder _ => productIds rows

/-- One step of one transaction on the committed store. -/
def advance (s : Store) : Call → Phase → Move → Option (Phase × Store)
  | .createProduct id payload, .ready, .insert =>
      (createProduct s id payload).map fun r => (.finished (.created id r.1), r.2)
  | .reserveForOrder orderId _, .ready, .read =>
      some
        (if (s.reservationsOf orderId).isEmpty then .checked [] else .finished (.reserved true), s)
  | .releaseForOrder orderId, .ready, .read =>
      some (if (s.reservationsOf orderId).isEmpty then .finished (.released [])
        else .checked (s.reservationsOf orderId), s)
  | call, .checked rows, .snapshot =>
      some (.locking rows ((call.wanted rows).filter fun id => id ∈ s.products.keys) Dict.empty, s)
  | _, .locking rows todo products, .lock productId =>
      if productId ∈ todo then
        (s.products.get? productId).map fun product =>
          (.locking rows (todo.erase productId) (products.set productId product), s)
      else none
  | .reserveForOrder orderId items, .locking _ [] products, .finish =>
      let r := reserveLocked s orderId items products
      some (.finished (.reserved r.1), r.2)
  | .releaseForOrder _, .locking rows [] products, .finish =>
      some (.finished (.released (productIds rows)), s.commitRelease rows products)
  | _, _, _ => none

/-- A row lock waits until no transaction holds the row. -/
def Db.lockFree (d : Db) : Move → Bool
  | .lock productId => d.txs.all fun t => productId ∉ t.phase.locks
  | _ => true

def step (d : Db) (a : Act) : Option Db :=
  match d.txs[a.tx]? with
  | none => none
  | some t =>
      if d.lockFree a.move then
        (advance d.store t.call t.phase a.move).map fun r =>
          ⟨r.2, d.txs.set a.tx ⟨t.call, r.1⟩⟩
      else none

/-- All calls are waiting to start. -/
def Db.start (s : Store) (calls : List Call) : Db := ⟨s, calls.map fun c => ⟨c, .ready⟩⟩

def Db.Finished (d : Db) : Prop := ∀ t ∈ d.txs, t.phase.result.isSome

instance (d : Db) : Decidable d.Finished := inferInstanceAs (Decidable (∀ t ∈ d.txs, _))

/-- The calls that have returned, with what they returned. -/
def Db.results (d : Db) : List (Call × Ret) :=
  d.txs.filterMap fun t => t.phase.result.map fun r => (t.call, r)

/-- Everything one step of a transaction can be. -/
inductive Moved (s : Store) : Call → Phase → Move → Phase → Store → Prop
  | inserted {id payload product s'} (h : createProduct s id payload = some (product, s')) :
      Moved s (.createProduct id payload) .ready .insert (.finished (.created id product)) s'
  | readNone {orderId items} (h : s.reservationsOf orderId = []) :
      Moved s (.reserveForOrder orderId items) .ready .read (.checked []) s
  | readDone {orderId items} (h : s.reservationsOf orderId ≠ []) :
      Moved s (.reserveForOrder orderId items) .ready .read (.finished (.reserved true)) s
  | readEmpty {orderId} (h : s.reservationsOf orderId = []) :
      Moved s (.releaseForOrder orderId) .ready .read (.finished (.released [])) s
  | readRows {orderId} (h : s.reservationsOf orderId ≠ []) :
      Moved s (.releaseForOrder orderId) .ready .read (.checked (s.reservationsOf orderId)) s
  | snapshot {call rows} :
      Moved s call (.checked rows) .snapshot
        (.locking rows ((call.wanted rows).filter fun id => id ∈ s.products.keys) Dict.empty) s
  | locked {call rows todo products productId product} (hmem : productId ∈ todo)
      (hget : s.products.get? productId = some product) :
      Moved s call (.locking rows todo products) (.lock productId)
        (.locking rows (todo.erase productId) (products.set productId product)) s
  | reserved {orderId items rows products} :
      Moved s (.reserveForOrder orderId items) (.locking rows [] products) .finish
        (.finished (.reserved (reserveLocked s orderId items products).1))
        (reserveLocked s orderId items products).2
  | released {orderId rows products} :
      Moved s (.releaseForOrder orderId) (.locking rows [] products) .finish
        (.finished (.released (productIds rows))) (s.commitRelease rows products)

theorem advance_moved {s s' : Store} {c : Call} {ph ph' : Phase} {m : Move}
    (h : advance s c ph m = some (ph', s')) : Moved s c ph m ph' s' := by
  unfold advance at h
  split at h
  · obtain ⟨⟨product, u⟩, hcreate, heq⟩ := Option.map_eq_some_iff.mp h
    cases heq
    exact .inserted hcreate
  · cases h
    split_ifs with hrows
    · exact .readNone (List.isEmpty_iff.mp hrows)
    · exact .readDone (fun hnil => hrows (List.isEmpty_iff.mpr hnil))
  · cases h
    split_ifs with hrows
    · exact .readEmpty (List.isEmpty_iff.mp hrows)
    · exact .readRows (fun hnil => hrows (List.isEmpty_iff.mpr hnil))
  · cases h
    exact .snapshot
  · split_ifs at h with hmem
    obtain ⟨product, hget, heq⟩ := Option.map_eq_some_iff.mp h
    cases heq
    exact .locked hmem hget
  · cases h
    exact .reserved
  · cases h
    exact .released
  · cases h

theorem step_moved {d d' : Db} {a : Act} (h : step d a = some d') :
    ∃ t ph s', d.txs[a.tx]? = some t ∧ d.lockFree a.move = true ∧
      Moved d.store t.call t.phase a.move ph s' ∧ d' = ⟨s', d.txs.set a.tx ⟨t.call, ph⟩⟩ := by
  unfold step at h
  split at h
  · cases h
  · rename_i t ht
    split_ifs at h with hfree
    obtain ⟨⟨ph, s'⟩, hadv, rfl⟩ := Option.map_eq_some_iff.mp h
    exact ⟨t, ph, s', ht, hfree, advance_moved hadv, rfl⟩

/-- A run never changes what is being called. -/
theorem exec_calls {d d' : Db} {acts : List Act} (h : Transition.exec step d acts = some d') :
    d'.txs.map Tx.call = d.txs.map Tx.call := by
  refine Transition.exec_invariant (fun e => e.txs.map Tx.call = d.txs.map Tx.call) ?_ rfl h
  intro e a e' he hs
  obtain ⟨t, ph, s', ht, -, -, rfl⟩ := step_moved hs
  exact (Pool.map_set_of_eq (b := ⟨t.call, ph⟩) Tx.call ht rfl).trans he

theorem map_fst_results {d : Db} (hdone : d.Finished) :
    d.results.map Prod.fst = d.txs.map Tx.call := by
  obtain ⟨s, txs⟩ := d
  unfold Db.results
  unfold Db.Finished at hdone
  induction txs with
  | nil => rfl
  | cons t ts ih =>
    obtain ⟨r, hr⟩ := Option.isSome_iff_exists.mp (hdone t List.mem_cons_self)
    have htail := ih fun u hu => hdone u (List.mem_cons_of_mem t hu)
    simp only [List.filterMap_cons, hr, Option.map_some, List.map_cons]
    exact congrArg (t.call :: ·) htail

/-- The rows read without a lock are those the order has now. -/
def Call.RowsCurrent (s : Store) (rows : List (Int × InventoryReservation)) : Call → Prop
  | .createProduct .. => False
  | .reserveForOrder orderId _ => s.reservationsOf orderId = []
  | .releaseForOrder orderId => rows = s.reservationsOf orderId ∧ rows ≠ []

/-- The locked rows are as they are committed now. -/
def Phase.LocksCurrent (s : Store) (c : Call) : Phase → Prop
  | .locking rows todo products =>
      (∀ k p, products.get? k = some p → k ∈ c.wanted rows ∧ s.products.get? k = some p) ∧
        ∀ k ∈ todo, k ∈ c.wanted rows ∧ k ∈ s.products.keys
  | _ => True

/-- What the locks guarantee in every run. -/
structure LockDiscipline (d : Db) : Prop where
  exclusive : ∀ (i j : Nat) (t u : Tx), d.txs[i]? = some t → d.txs[j]? = some u →
    ∀ k ∈ t.phase.locks, k ∈ u.phase.locks → i = j
  current : ∀ (i : Nat) (t : Tx), d.txs[i]? = some t → t.phase.LocksCurrent d.store t.call

theorem Phase.LocksCurrent.mem_keys {s : Store} {c : Call} {ph : Phase}
    (h : ph.LocksCurrent s c) : ∀ k ∈ ph.locks, k ∈ s.products.keys := by
  intro k hk
  cases ph with
  | locking rows todo products =>
    obtain ⟨p, hp⟩ := Option.isSome_iff_exists.mp ((products.mem_keys_iff k).mp hk)
    rw [Dict.mem_keys_iff, (h.1 k p hp).2]
    rfl
  | _ => cases hk

/-- Locked rows stay current while nobody else writes them. -/
theorem Phase.LocksCurrent.frame {s s' : Store} {c : Call} {ph : Phase}
    (h : ph.LocksCurrent s c) (hkeys : s.products.keys ⊆ s'.products.keys)
    (hget : ∀ k ∈ ph.locks, s'.products.get? k = s.products.get? k) : ph.LocksCurrent s' c := by
  cases ph with
  | locking rows todo products =>
    refine ⟨fun k p hp => ?_, fun k hk => ?_⟩
    · have hk : k ∈ products.keys := (products.mem_keys_iff k).mpr (hp ▸ rfl)
      obtain ⟨hw, hs⟩ := h.1 k p hp
      exact ⟨hw, (hget k hk).trans hs⟩
    · exact ⟨(h.2 k hk).1, hkeys (h.2 k hk).2⟩
  | _ => trivial

/-- A step writes only rows it has locked, and inserts only new ones. -/
theorem Moved.frame {s s' : Store} {c : Call} {ph ph' : Phase} {m : Move}
    (h : Moved s c ph m ph' s') :
    s.products.keys ⊆ s'.products.keys ∧
      ∀ k ∈ s.products.keys, k ∉ ph.locks → s'.products.get? k = s.products.get? k := by
  have hself : s.products.keys ⊆ s.products.keys ∧
      ∀ k ∈ s.products.keys, k ∉ ph.locks → s.products.get? k = s.products.get? k :=
    ⟨fun _ hk => hk, fun _ _ _ => rfl⟩
  cases h with
  | @inserted id payload product _ hcreate =>
    obtain ⟨hid, -, -, rfl⟩ := createProduct_eq_some hcreate
    refine ⟨fun k hk => ?_, fun k hk _ => ?_⟩
    · rw [Dict.keys_set, if_neg hid]
      exact List.mem_append_left _ hk
    · have hne : k ≠ id := fun heq => hid (heq ▸ hk)
      rw [Dict.get?_set, if_neg hne]
  | @reserved orderId items rows products =>
    unfold reserveLocked
    split_ifs with hc
    · refine ⟨Dict.subset_keys_update _ _, fun k _ hk => ?_⟩
      apply Dict.get?_update_of_notMem
      intro hmem
      change k ∈ (takeStock (wantedOf items) products).keys at hmem
      rw [keys_takeStock] at hmem
      exact hk hmem
    · exact hself
  | @released orderId rows products =>
    refine ⟨Dict.subset_keys_update _ _, fun k _ hk => ?_⟩
    apply Dict.get?_update_of_notMem
    intro hmem
    change k ∈ (returnStock rows products).keys at hmem
    rw [keys_returnStock] at hmem
    exact hk hmem
  | _ => exact hself

/-- A step locks at most the row it asks for. -/
theorem Moved.locks {s s' : Store} {c : Call} {ph ph' : Phase} {m : Move}
    (h : Moved s c ph m ph' s') : ∀ k ∈ ph'.locks, k ∈ ph.locks ∨ m = .lock k := by
  intro k hk
  cases h with
  | @locked call rows todo products productId product hmem hget =>
    change k ∈ (products.set productId product).keys at hk
    rw [Dict.keys_set] at hk
    split_ifs at hk
    · exact .inl hk
    · rcases List.mem_append.mp hk with hold | hnew
      · exact .inl hold
      · exact .inr (congrArg Move.lock (List.mem_singleton.mp hnew).symm)
  | _ => cases hk

theorem Moved.locksCurrent {s s' : Store} {c : Call} {ph ph' : Phase} {m : Move}
    (h : Moved s c ph m ph' s') (hcur : ph.LocksCurrent s c) : ph'.LocksCurrent s' c := by
  cases h with
  | snapshot =>
    refine ⟨fun k p hp => by simp at hp, fun k hk => ?_⟩
    obtain ⟨hw, hin⟩ := List.mem_filter.mp hk
    exact ⟨hw, of_decide_eq_true hin⟩
  | locked hmem hget =>
    refine ⟨fun k p hp => ?_, fun k hk => hcur.2 k (List.mem_of_mem_erase hk)⟩
    rw [Dict.get?_set] at hp
    split_ifs at hp with heq
    · cases Option.some.inj hp
      exact ⟨heq ▸ (hcur.2 _ hmem).1, heq ▸ hget⟩
    · exact hcur.1 k p hp
  | _ => trivial

theorem lockDiscipline_start (s : Store) (calls : List Call) :
    LockDiscipline (Db.start s calls) := by
  have hready : ∀ (i : Nat) (t : Tx), (Db.start s calls).txs[i]? = some t → t.phase = .ready := by
    intro i t ht
    obtain ⟨c, -, rfl⟩ := List.mem_map.mp (List.mem_of_getElem? ht)
    rfl
  refine ⟨fun i j t u ht hu k hk => ?_, fun i t ht => ?_⟩
  · rw [hready i t ht] at hk
    cases hk
  · rw [hready i t ht]
    trivial

theorem step_lockDiscipline {d d' : Db} {a : Act} (hd : LockDiscipline d)
    (h : step d a = some d') : LockDiscipline d' := by
  obtain ⟨t, ph, s', ht, hfree, hmoved, rfl⟩ := step_moved h
  have hothers : ∀ (j : Nat) (u : Tx), j ≠ a.tx → d.txs[j]? = some u →
      ∀ k ∈ ph.locks, k ∉ u.phase.locks := by
    intro j u hj hu k hk hku
    rcases hmoved.locks k hk with hold | hm
    · exact hj (hd.exclusive j a.tx u t hu ht k hku hold)
    · rw [hm] at hfree
      have hfreeAll := List.all_eq_true.mp hfree u (List.mem_of_getElem? hu)
      exact of_decide_eq_true hfreeAll hku
  obtain ⟨hkeys, hget⟩ := hmoved.frame
  refine ⟨fun i j v u hv hu k hk hku => ?_, fun i v hv => ?_⟩
  · rcases Pool.getElem?_set_cases hv with ⟨rfl, rfl⟩ | ⟨hi, hv⟩ <;>
      rcases Pool.getElem?_set_cases hu with ⟨rfl, rfl⟩ | ⟨hj, hu⟩
    · rfl
    · exact absurd hku (hothers j u hj hu k hk)
    · exact absurd hk (hothers i v hi hv k hku)
    · exact hd.exclusive i j v u hv hu k hk hku
  · rcases Pool.getElem?_set_cases hv with ⟨rfl, rfl⟩ | ⟨hi, hv⟩
    · exact hmoved.locksCurrent (hd.current _ t ht)
    · have hcur := hd.current i v hv
      refine hcur.frame hkeys fun k hk => hget k (hcur.mem_keys k hk) fun hkt => ?_
      exact hi (hd.exclusive i a.tx v t hv ht k hk hkt)

/-- Once nothing is left to lock, every wanted product that exists is loaded. -/
theorem Phase.LocksCurrent.loaded {s : Store} {c : Call}
    {rows : List (Int × InventoryReservation)} {products : Dict Int Product}
    (h : (Phase.locking rows [] products).LocksCurrent s c)
    (hall : ∀ k ∈ c.wanted rows, k ∈ s.products.keys → k ∈ products.keys) :
    s.Loaded (c.wanted rows) products := by
  intro k
  by_cases hmem : k ∈ products.keys
  · obtain ⟨p, hp⟩ := Option.isSome_iff_exists.mp ((products.mem_keys_iff k).mp hmem)
    obtain ⟨hw, hs⟩ := h.1 k p hp
    rw [if_pos hw, hp, hs]
  · rw [(products.get?_eq_none_iff k).mpr hmem]
    split_ifs with hw
    · exact ((s.products.get?_eq_none_iff k).mpr fun hin => hmem (hall k hw hin)).symm
    · rfl

end OrderMesh.Inventory
