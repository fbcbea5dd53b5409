import Mathlib.Logic.Function.Iterate
import OrderMesh.Inventory.Transactions

namespace OrderMesh.Inventory

open Transition

/-- What a copy that commits does to the store. A release writes by the rows it
read before any of them was gone. -/
def Call.rewrite (s₀ : Store) (c : Call) (t : Store) : Store :=
  match c with
  | .createProduct .. => t
  | .reserveForOrder orderId items => t.reserved orderId items
  | .releaseForOrder orderId =>
      t.commitRelease (s₀.reservationsOf orderId)
        (t.selectForUpdate (productIds (s₀.reservationsOf orderId)))

/-- The transaction would write if it ended now. -/
def Phase.writes (c : Call) (ph : Phase) : Bool :=
  match c, ph with
  | .reserveForOrder _ items, .locking _ _ products => covers (wantedOf items) products
  | .releaseForOrder _, .locking .. => true
  | _, _ => false

/-- The reservations are still what the transaction read without a lock, or the
rows it read carry no stock. -/
def Phase.StillCurrent (s : Store) (c : Call) (ph : Phase) : Prop :=
  match c, ph with
  | .reserveForOrder orderId _, .locking .. => s.reservationsOf orderId = []
  | .releaseForOrder orderId, .locking rows _ _ =>
      s.reservationsOf orderId = rows ∨ ∀ k ∈ s.products.keys, held rows k = 0
  | _, _ => True

def Db.writes (d : Db) (a : Act) : Bool :=
  a.move = .finish && d.txs[a.tx]?.any fun t => t.phase.writes t.call

/-- A transaction that writes has read what is still there. -/
def CommitsCurrent (d : Db) (a : Act) : Prop :=
  d.writes a = true → ∀ t ∈ d.txs[a.tx]?, t.phase.StillCurrent d.store t.call

instance (s : Store) (c : Call) (ph : Phase) : Decidable (ph.StillCurrent s c) := by
  unfold Phase.StillCurrent
  split <;> infer_instance

instance (d : Db) (a : Act) : Decidable (CommitsCurrent d a) := inferInstanceAs (Decidable (_ → _))

variable {s₀ : Store} {c : Call}

theorem keys_rewrite (t : Store) : (c.rewrite s₀ t).products.keys = t.products.keys := by
  cases c with
  | createProduct => rfl
  | reserveForOrder orderId items => exact keys_reserved t orderId items
  | releaseForOrder orderId => exact keys_commitRelease (t.loaded_selectForUpdate _)

theorem keys_rewrite_iterate (m : Nat) :
    ((c.rewrite s₀)^[m] s₀).products.keys = s₀.products.keys := by
  induction m with
  | zero => rfl
  | succ m ih => rw [Function.iterate_succ_apply', keys_rewrite, ih]

theorem length_reserved_iterate (s : Store) (orderId : Int) (items : List Item) (m : Nat) :
    (((Store.reserved · orderId items)^[m] s).reservationsOf orderId).length =
      (s.reservationsOf orderId).length +
        m * (reservationRows orderId (wantedOf items)).length := by
  induction m with
  | zero => simp
  | succ m ih =>
    rw [Function.iterate_succ_apply']
    have hsnd := congrArg List.length
      (reservationsOf_reserved_self ((Store.reserved · orderId items)^[m] s) orderId items)
    rw [List.length_map, List.length_append, List.length_map, ih] at hsnd
    rw [hsnd, Nat.succ_mul, Nat.add_assoc]

theorem get?_rewrite_release (s₀ : Store) (orderId : Int) (m : Nat) (k : Int) :
    (((Call.releaseForOrder orderId).rewrite s₀)^[m] s₀).products.get? k =
      (s₀.products.get? k).map fun p => p.add (m * held (s₀.reservationsOf orderId) k) := by
  induction m with
  | zero => simp
  | succ m ih =>
    rw [Function.iterate_succ_apply']
    have hget := get?_commitRelease (Store.loaded_selectForUpdate
      (((Call.releaseForOrder orderId).rewrite s₀)^[m] s₀)
      (productIds (s₀.reservationsOf orderId))) k
    refine hget.trans ?_
    rw [ih, Option.map_map]
    have hsum : ∀ h : Int, m * h + h = ((m + 1 : Nat) : Int) * h := by
      intro h
      rw [Int.natCast_succ, Int.add_mul, Int.one_mul]
    simp only [Function.comp_def, Product.add_add, hsum]

/-- After the first release the order has no rows. -/
theorem reservationsOf_rewrite_release (s₀ : Store) (orderId : Int) (m : Nat) :
    (((Call.releaseForOrder orderId).rewrite s₀)^[m + 1] s₀).reservationsOf orderId = [] := by
  induction m with
  | zero => exact reservationsOf_released_self s₀ orderId
  | succ m ih =>
    rw [Function.iterate_succ_apply']
    exact SerialTable.select_deleteIds_eq_nil ih _

theorem stillCurrent_of_rowsCurrent {rows : List (Int × InventoryReservation)} {todo : List Int}
    {products : Dict Int Product} (hread : c.RowsCurrent s₀ rows) :
    (Phase.locking rows todo products).StillCurrent s₀ c := by
  cases c with
  | createProduct => trivial
  | reserveForOrder orderId items => exact hread
  | releaseForOrder orderId => exact .inl hread.1.symm

/-- Rewriting once more on rows that are still current changes nothing. -/
theorem rewrite_again {rows : List (Int × InventoryReservation)} {todo : List Int}
    {products : Dict Int Product} (hread : c.RowsCurrent s₀ rows)
    (hcur : (Phase.locking rows todo products).StillCurrent (c.rewrite s₀ s₀) c) :
    c.rewrite s₀ (c.rewrite s₀ s₀) = c.rewrite s₀ s₀ := by
  cases c with
  | createProduct => rfl
  | reserveForOrder orderId items =>
    have hitems : items = [] := by
      by_contra hne
      exact reservationsOf_reserved_ne_nil s₀ orderId hne hcur
    subst hitems
    exact reserved_nil _ _
  | releaseForOrder orderId =>
    obtain ⟨rfl, hne⟩ := hread
    have hgone := reservationsOf_rewrite_release s₀ orderId 0
    have hzero : ∀ k ∈ s₀.products.keys, held (s₀.reservationsOf orderId) k = 0 := by
      rcases hcur with hrows | hzero
      · exact absurd (hrows.symm.trans hgone) hne
      · rwa [keys_rewrite] at hzero
    apply Store.ext
    · apply Dict.ext_get?
      · rw [keys_rewrite]
      · intro k
        have hget := get?_rewrite_release s₀ orderId 2 k
        have hget' := get?_rewrite_release s₀ orderId 1 k
        refine hget.trans (Eq.trans ?_ hget'.symm)
        by_cases hk : k ∈ s₀.products.keys
        · rw [hzero k hk]
          simp
        · rw [(s₀.products.get?_eq_none_iff k).mpr hk]
          rfl
    · exact SerialTable.deleteIds_deleteIds _ _

/-- Rewriting again on rows that have changed never leads to the outcome of one call. -/
theorem rewrite_iterate_ne {rows : List (Int × InventoryReservation)} {todo : List Int}
    {products : Dict Int Product} {m₁ m₂ : Nat} (hread : c.RowsCurrent s₀ rows) (hm : 2 ≤ m₂)
    (hstale : ¬ (Phase.locking rows todo products).StillCurrent ((c.rewrite s₀)^[m₁] s₀) c) :
    (c.rewrite s₀)^[m₂] s₀ ≠ c.rewrite s₀ s₀ := by
  intro heq
  cases c with
  | createProduct => exact hstale trivial
  | reserveForOrder orderId items =>
    have hnil : s₀.reservationsOf orderId = [] := hread
    have hlen := length_reserved_iterate s₀ orderId items
    have hpos : 0 < (((Store.reserved · orderId items)^[m₁] s₀).reservationsOf orderId).length :=
      List.length_pos_iff.mpr hstale
    have htwo := congrArg (fun s : Store => (s.reservationsOf orderId).length) heq
    have hm₂ : (((Store.reserved · orderId items)^[m₂] s₀).reservationsOf orderId).length =
        (((Store.reserved · orderId items)^[1] s₀).reservationsOf orderId).length := htwo
    rw [hlen, hnil, List.length_nil, Nat.zero_add] at hpos
    rw [hlen, hlen, Nat.add_left_cancel_iff] at hm₂
    have hrow : 0 < (reservationRows orderId (wantedOf items)).length :=
      Nat.pos_of_mul_pos_left hpos
    have hone : m₂ = 1 := Nat.eq_of_mul_eq_mul_right hrow hm₂
    omega
  | releaseForOrder orderId =>
    obtain ⟨rfl, -⟩ := hread
    obtain ⟨-, hsome⟩ := not_or.mp hstale
    push Not at hsome
    obtain ⟨k, hk, hheld⟩ := hsome
    rw [keys_rewrite_iterate] at hk
    obtain ⟨p, hp⟩ := Option.isSome_iff_exists.mp ((s₀.products.mem_keys_iff k).mp hk)
    have hget := get?_rewrite_release s₀ orderId m₂ k
    have hget' := get?_rewrite_release s₀ orderId 1 k
    have hsame : (s₀.products.get? k).map
          (fun p => p.add (m₂ * held (s₀.reservationsOf orderId) k)) =
        (s₀.products.get? k).map
          (fun p => p.add ((1 : Nat) * held (s₀.reservationsOf orderId) k)) := by
      rw [← hget, heq, ← hget']
      rfl
    rw [hp] at hsame
    have hq := congrArg Product.quantityAvailable (Option.some.inj hsame)
    simp only [Product.quantityAvailable_add] at hq
    have hmul : (m₂ : Int) * held (s₀.reservationsOf orderId) k =
        (1 : Nat) * held (s₀.reservationsOf orderId) k := by omega
    have hone := Int.eq_of_mul_eq_mul_right hheld hmul
    omega

/-- What a copy read before the first commit, and what it has yet to lock. -/
def Phase.ReadFirst (s₀ : Store) (c : Call) : Phase → Prop
  | .checked rows => c.RowsCurrent s₀ rows
  | .locking rows todo products => c.RowsCurrent s₀ rows ∧
      ∀ k ∈ c.wanted rows, k ∈ s₀.products.keys → k ∈ todo ∨ k ∈ products.keys
  | _ => True

/-- Copies of `c` started on `s₀` have committed `m` times. -/
structure Copies (s₀ : Store) (c : Call) (m : Nat) (d : Db) : Prop where
  locks : LockDiscipline d
  store : d.store = (c.rewrite s₀)^[m] s₀
  calls : ∀ t ∈ d.txs, t.call = c
  phases : ∀ t ∈ d.txs, t.phase.ReadFirst s₀ c
  first : 1 ≤ m → c.run s₀ = c.rewrite s₀ s₀
  ended : ∀ t ∈ d.txs, t.phase.result.isSome → m = 0 → c.run s₀ = s₀

theorem copies_start (s₀ : Store) (c : Call) (n : Nat) :
    Copies s₀ c 0 (Db.start s₀ (List.replicate n c)) := by
  have hall : ∀ t ∈ (Db.start s₀ (List.replicate n c)).txs, t = ⟨c, .ready⟩ := by
    intro t ht
    obtain ⟨c', hc', rfl⟩ := List.mem_map.mp ht
    rw [List.eq_of_mem_replicate hc']
  refine ⟨lockDiscipline_start _ _, rfl, fun t ht => ?_, fun t ht => ?_, fun h => ?_,
    fun t ht hr => ?_⟩
  · rw [hall t ht]
  · rw [hall t ht]
    trivial
  · omega
  · rw [hall t ht] at hr
    cases hr

/-- At its commit a copy has loaded what the tables hold of the wanted products. -/
theorem Copies.loaded {m : Nat} {d : Db} (hd : Copies s₀ c m d) {i : Nat} {t : Tx}
    (ht : d.txs[i]? = some t) {rows : List (Int × InventoryReservation)}
    {products : Dict Int Product} (hph : t.phase = .locking rows [] products) :
    d.store.Loaded (c.wanted rows) products := by
  have hmem := List.mem_of_getElem? ht
  have hcur := hd.locks.current i t ht
  have hread := hd.phases t hmem
  rw [hph] at hcur hread
  rw [hd.calls t hmem] at hcur
  refine hcur.loaded fun k hk hin => ?_
  rw [hd.store, keys_rewrite_iterate] at hin
  exact (hread.2 k hk hin).resolve_left (by simp)

/-- After `m` commits a step leaves the tables, and a copy that ends so had nothing
to do; or it commits the rewrite. -/
def Rewrites (s₀ : Store) (c : Call) (m : Nat) (s : Store) (ph : Phase) (mv : Move) (ph' : Phase)
    (s' : Store) : Prop :=
  ((mv = .finish → ph.writes c = false) ∧ s' = s ∧ (ph'.result.isSome → m = 0 → c.run s₀ = s₀)) ∨
    (mv = .finish ∧ ph.writes c = true ∧ s' = c.rewrite s₀ s ∧
      (m = 0 → c.run s₀ = c.rewrite s₀ s₀))

theorem rewrites_running {m : Nat} {s : Store} {ph ph' : Phase} {mv : Move} (hmv : mv ≠ .finish)
    (hph : ph'.result = none) : Rewrites s₀ c m s ph mv ph' s := by
  refine .inl ⟨fun h => absurd h hmv, rfl, fun h => ?_⟩
  rw [hph] at h
  cases h

theorem rewrites_reserved {m : Nat} {s : Store} {orderId : Int} {items : List Item}
    {rows : List (Int × InventoryReservation)} {products : Dict Int Product}
    (hstart : m = 0 → s = s₀) (hl : s.Loaded (wantedOf items).keys products)
    (hfirst : s₀.reservationsOf orderId = []) :
    Rewrites s₀ (.reserveForOrder orderId items) m s (.locking rows [] products) .finish
      (.finished (.reserved (reserveLocked s orderId items products).1))
      (reserveLocked s orderId items products).2 := by
  rw [reserveLocked_eq hl]
  by_cases hcov : s.Covers items
  · refine .inr ⟨rfl, (covers_iff hl).mpr hcov, ?_, fun hm => ?_⟩
    · rw [if_pos hcov]
      rfl
    · rw [hstart hm] at hcov
      change (Inventory.reserveForOrder s₀ orderId items).2 = _
      rw [reserveForOrder_eq, if_pos hfirst, if_pos hcov]
      rfl
  · refine .inl ⟨fun _ => ?_, ?_, fun _ hm => ?_⟩
    · exact Bool.eq_false_iff.mpr fun h => hcov ((covers_iff hl).mp h)
    · rw [if_neg hcov]
    · rw [hstart hm] at hcov
      change (Inventory.reserveForOrder s₀ orderId items).2 = _
      rw [reserveForOrder_eq, if_pos hfirst, if_neg hcov]

theorem rewrites_released {m : Nat} {s : Store} {orderId : Int} {products : Dict Int Product}
    {ph' : Phase} (hl : s.Loaded (productIds (s₀.reservationsOf orderId)) products)
    (hne : s₀.reservationsOf orderId ≠ []) :
    Rewrites s₀ (.releaseForOrder orderId) m s (.locking (s₀.reservationsOf orderId) [] products)
      .finish ph' (s.commitRelease (s₀.reservationsOf orderId) products) := by
  refine .inr ⟨rfl, rfl, ?_, fun _ => ?_⟩
  · exact commitRelease_congr hl (s.loaded_selectForUpdate _)
  · change (Inventory.releaseForOrder s₀ orderId).2 = _
    rw [releaseForOrder_eq, if_neg hne]
    rfl

/-- What one step does to the tables, and what a copy that ends without writing saw. -/
theorem Copies.moved {m : Nat} {d : Db} (hd : Copies s₀ c m d) {i : Nat} {t : Tx} {mv : Move}
    {ph : Phase} {s' : Store} (ht : d.txs[i]? = some t) (hc : c.orderId.isSome)
    (hmoved : Moved d.store t.call t.phase mv ph s') :
    ph.ReadFirst s₀ c ∧ Rewrites s₀ c m d.store t.phase mv ph s' := by
  have hmem := List.mem_of_getElem? ht
  have hstart : m = 0 → d.store = s₀ := by
    intro hm
    rw [hd.store, hm]
    rfl
  have hread := hd.phases t hmem
  have hcall := hd.calls t hmem
  have hloaded : ∀ rows products, t.phase = .locking rows [] products →
      d.store.Loaded (c.wanted rows) products := fun _ _ => hd.loaded ht
  obtain ⟨call, phase⟩ := t
  dsimp only at hcall hread hloaded hmoved ⊢
  subst hcall
  cases hmoved with
  | inserted => cases hc
  | @readNone orderId items hnil =>
    have hfirst : s₀.reservationsOf orderId = [] := by
      have hlen := length_reserved_iterate s₀ orderId items m
      have hstore : d.store = (Store.reserved · orderId items)^[m] s₀ := hd.store
      rw [← hstore, hnil] at hlen
      apply List.length_eq_zero_iff.mp
      simp only [List.length_nil] at hlen
      omega
    exact ⟨hfirst, rewrites_running (by simp) rfl⟩
  | @readDone orderId items hne =>
    refine ⟨trivial, .inl ⟨fun h => (by cases h), rfl, fun _ hm => ?_⟩⟩
    rw [hstart hm] at hne
    change (Inventory.reserveForOrder s₀ orderId items).2 = s₀
    rw [reserveForOrder_eq, if_neg hne]
  | @readEmpty orderId hnil =>
    refine ⟨trivial, .inl ⟨fun h => (by cases h), rfl, fun _ hm => ?_⟩⟩
    rw [hstart hm] at hnil
    change (Inventory.releaseForOrder s₀ orderId).2 = s₀
    rw [releaseForOrder_eq, if_pos hnil]
  | @readRows orderId hne =>
    have hzero : m = 0 := by
      cases m with
      | zero => rfl
      | succ m => exact absurd (hd.store ▸ reservationsOf_rewrite_release _ orderId m) hne
    rw [hstart hzero] at hne ⊢
    exact ⟨⟨rfl, hne⟩, rewrites_running (by simp) rfl⟩
  | snapshot =>
    refine ⟨⟨hread, fun k hk hin => .inl (List.mem_filter.mpr ⟨hk, ?_⟩)⟩,
      rewrites_running (by simp) rfl⟩
    rw [hd.store, keys_rewrite_iterate]
    exact decide_eq_true hin
  | @locked _ rows todo products productId product hmemTodo hget =>
    refine ⟨⟨hread.1, fun k hk hin => ?_⟩, rewrites_running (by simp) rfl⟩
    have hkey : k ∈ (products.set productId product).keys ↔ k ∈ products.keys ∨ k = productId :=
      Dict.mem_keys_set ..
    rw [hkey]
    rcases hread.2 k hk hin with htodo | hkeys
    · by_cases hkp : k = productId
      · exact .inr (.inr hkp)
      · exact .inl ((List.mem_erase_of_ne hkp).mpr htodo)
    · exact .inr (.inl hkeys)
  | reserved => exact ⟨trivial, rewrites_reserved hstart (hloaded _ _ rfl) hread.1⟩
  | released =>
    obtain ⟨⟨rfl, hne⟩, -⟩ := hread
    exact ⟨trivial, rewrites_released (hloaded _ _ rfl) hne⟩

theorem step_copies {m : Nat} {d d' : Db} {a : Act} (hc : c.orderId.isSome)
    (hd : Copies s₀ c m d) (h : step d a = some d') :
    Copies s₀ c (m + (d.writes a).toNat) d' := by
  have hlocks := step_lockDiscipline hd.locks h
  obtain ⟨t, ph, s', ht, -, hmoved, rfl⟩ := step_moved h
  obtain ⟨hread, hout⟩ := hd.moved ht hc hmoved
  have hcall := hd.calls t (List.mem_of_getElem? ht)
  have hmem : ∀ u ∈ d.txs.set a.tx ⟨t.call, ph⟩, u = ⟨t.call, ph⟩ ∨ u ∈ d.txs := by
    intro u hu
    exact (List.mem_or_eq_of_mem_set hu).symm
  have hcalls : ∀ u ∈ d.txs.set a.tx ⟨t.call, ph⟩, u.call = c := by
    intro u hu
    rcases hmem u hu with rfl | hold
    · exact hcall
    · exact hd.calls u hold
  have hphases : ∀ u ∈ d.txs.set a.tx ⟨t.call, ph⟩, u.phase.ReadFirst s₀ c := by
    intro u hu
    rcases hmem u hu with rfl | hold
    · exact hread
    · exact hd.phases u hold
  have hwrites : d.writes a = (decide (a.move = .finish) && t.phase.writes c) := by
    rw [Db.writes, ht, ← hcall]
    rfl
  rcases hout with ⟨hno, hs, hended⟩ | ⟨hm, hyes, hs, hfirst⟩
  · have hzero : d.writes a = false := by
      rw [hwrites]
      by_cases hf : a.move = .finish
      · rw [hno hf, Bool.and_false]
      · rw [decide_eq_false hf, Bool.false_and]
    rw [hzero]
    refine ⟨hlocks, hs.trans hd.store, hcalls, hphases, hd.first, fun u hu hr hm => ?_⟩
    rcases hmem u hu with rfl | hold
    · exact hended hr hm
    · exact hd.ended u hold hr hm
  · have hone : d.writes a = true := by
      rw [hwrites, hm, hyes]
      rfl
    rw [hone]
    refine ⟨hlocks, ?_, hcalls, hphases, fun _ => ?_, fun u _ _ hzero => ?_⟩
    · change s' = (c.rewrite s₀)^[m + 1] s₀
      rw [hs, hd.store, Function.iterate_succ_apply']
    · by_cases hm0 : m = 0
      · exact hfirst hm0
      · exact hd.first (by omega)
    · change m + 1 = 0 at hzero
      omega

/-- A copy that writes holds its locks and what it read first. -/
theorem Copies.writing {m : Nat} {d : Db} {a : Act} (hd : Copies s₀ c m d)
    (hw : d.writes a = true) :
    ∃ rows todo products, d.txs[a.tx]? = some ⟨c, .locking rows todo products⟩ ∧
      c.RowsCurrent s₀ rows := by
  obtain ⟨-, hany⟩ := (Bool.and_eq_true _ _).mp hw
  obtain ⟨⟨call, phase⟩, ht, hwt⟩ := (Option.any_eq_true _ _).mp hany
  have hmem := List.mem_of_getElem? ht
  have hcall := hd.calls _ hmem
  have hread := hd.phases _ hmem
  dsimp only at hcall hread hwt
  subst hcall
  cases phase with
  | locking rows todo products => exact ⟨rows, todo, products, ht, hread.1⟩
  | _ => cases call <;> cases hwt

/-- While commits are current, a second one changes nothing. -/
theorem step_once {d d' : Db} {a : Act} (hc : c.orderId.isSome)
    (hd : ∃ m ≤ 1, Copies s₀ c m d) (hcur : CommitsCurrent d a) (h : step d a = some d') :
    ∃ m ≤ 1, Copies s₀ c m d' := by
  obtain ⟨m, hm, hd⟩ := hd
  have hd' := step_copies hc hd h
  by_cases hw : d.writes a = true
  · rw [hw] at hd'
    by_cases hzero : m = 0
    · exact ⟨m + 1, by omega, hd'⟩
    · have hone : m = 1 := by omega
      subst hone
      obtain ⟨rows, todo, products, ht, hread⟩ := hd.writing hw
      have hstill := hcur hw _ ht
      rw [hd.store] at hstill
      refine ⟨1, Nat.le_refl 1, hd'.locks, ?_, hd'.calls, hd'.phases, hd.first, fun _ _ _ h1 => ?_⟩
      · exact hd'.store.trans (rewrite_again hread hstill)
      · omega
  · rw [Bool.eq_false_of_not_eq_true hw] at hd'
    exact ⟨m, hm, hd'⟩

/-- Copies that all commit on current rows leave the store of a single call, and
only such copies do. -/
theorem same_order_once_iff (s : Store) (c : Call) (n : Nat) (acts : List Act) (d : Db)
    (hc : c.orderId.isSome)
    (hrun : exec step (Db.start s (List.replicate (n + 1) c)) acts = some d)
    (hdone : d.Finished) :
    d.store = c.run s ↔ Meets step CommitsCurrent (Db.start s (List.replicate (n + 1) c)) acts := by
  constructor
  · intro hsingle
    by_contra hmeets
    obtain ⟨pre, a, post, u, rfl, hpre, hbad⟩ := exists_break_of_not_meets hrun hmeets
    obtain ⟨u', hu', hrest⟩ := exec_append_eq_some.mp hrun
    cases Option.some.inj (hpre.symm.trans hu')
    obtain ⟨v, hv, hpost⟩ := exec_cons_eq_some.mp hrest
    have hinv : ∃ m, Copies s c m u :=
      exec_invariant (fun e => ∃ m, Copies s c m e)
        (fun _ _ _ ⟨m, hm⟩ hs => ⟨_, step_copies hc hm hs⟩) ⟨0, copies_start s c _⟩ hpre
    obtain ⟨m, hu⟩ := hinv
    obtain ⟨hw, hstale⟩ := Classical.not_imp.mp hbad
    obtain ⟨rows, todo, products, ht, hread⟩ := hu.writing hw
    have hnot : ¬ (Phase.locking rows todo products).StillCurrent ((c.rewrite s)^[m] s) c := by
      intro hcur
      apply hstale
      intro t htx
      cases Option.some.inj (ht.symm.trans htx)
      rwa [hu.store]
    have hpos : 1 ≤ m := by
      by_contra hzero
      have hm0 : m = 0 := by omega
      subst hm0
      exact hnot (stillCurrent_of_rowsCurrent hread)
    have hv' := step_copies hc hu hv
    rw [hw] at hv'
    have hend : ∃ k ≥ 2, Copies s c k d := by
      refine exec_invariant (fun e => ∃ k ≥ 2, Copies s c k e) ?_ ⟨m + 1, by omega, hv'⟩ hpost
      intro e b e' ⟨k, hk, he⟩ hs
      exact ⟨_, by omega, step_copies hc he hs⟩
    obtain ⟨k, hk, hd⟩ := hend
    apply rewrite_iterate_ne hread hk hnot
    rw [← hd.store, hsingle, hu.first hpos]
  · intro hmeets
    have hinv : ∃ m ≤ 1, Copies s c m d :=
      exec_invariant_of_meets (fun e => ∃ m ≤ 1, Copies s c m e)
        (fun _ _ _ hi hg hs => step_once hc hi hg hs) ⟨0, by omega, copies_start s c _⟩ hmeets hrun
    obtain ⟨m, hm, hd⟩ := hinv
    by_cases hzero : m = 0
    · have hlen := congrArg List.length (exec_calls hrun)
      have hpos : 0 < d.txs.length := by
        simp only [List.length_map, Db.start, List.length_replicate] at hlen
        omega
      have hlast := List.getElem_mem hpos
      rw [hd.ended _ hlast (hdone _ hlast) hzero, hd.store, hzero]
      rfl
    · have hone : m = 1 := by omega
      rw [hd.first (by omega), hd.store, hone]
      rfl

def fourUnits : Call := .reserveForOrder 1 [⟨1, 4⟩]

/-- Two copies of one reserve, each reading before the other commits. -/
def readsFirstActs : List Act :=
  [⟨0, .read⟩, ⟨1, .read⟩, ⟨0, .snapshot⟩, ⟨0, .lock 1⟩, ⟨0, .finish⟩, ⟨1, .snapshot⟩,
    ⟨1, .lock 1⟩, ⟨1, .finish⟩]

/-- The second copy reads after the first has committed. -/
def readsLaterActs : List Act :=
  [⟨0, .read⟩, ⟨0, .snapshot⟩, ⟨0, .lock 1⟩, ⟨0, .finish⟩, ⟨1, .read⟩]

theorem same_order_once_iff_readsLater :
    ∃ d, exec step (Db.start (runCalls .empty [.createProduct 1 widget])
        (List.replicate 2 fourUnits)) readsLaterActs = some d ∧
      (d.store = fourUnits.run (runCalls .empty [.createProduct 1 widget]) ↔
        Meets step CommitsCurrent (Db.start (runCalls .empty [.createProduct 1 widget])
          (List.replicate 2 fourUnits)) readsLaterActs) := by
  have hsome : (exec step (Db.start (runCalls .empty [.createProduct 1 widget])
      (List.replicate 2 fourUnits)) readsLaterActs).isSome := by decide
  have hfinal : ∀ d ∈ exec step (Db.start (runCalls .empty [.createProduct 1 widget])
      (List.replicate 2 fourUnits)) readsLaterActs, d.Finished := by decide
  obtain ⟨d, hd⟩ := Option.isSome_iff_exists.mp hsome
  exact ⟨d, hd, same_order_once_iff _ fourUnits 1 _ d rfl hd (hfinal d hd)⟩

/-- Both copies commit: the order has two rows and the stock is taken twice. -/
theorem same_order_reserved_twice :
    ∃ d, exec step (Db.start (runCalls .empty [.createProduct 1 widget])
        (List.replicate 2 fourUnits)) readsFirstActs = some d ∧ d.Finished ∧
      d.store ≠ fourUnits.run (runCalls .empty [.createProduct 1 widget]) := by
  have hsome : (exec step (Db.start (runCalls .empty [.createProduct 1 widget])
      (List.replicate 2 fourUnits)) readsFirstActs).isSome := by decide
  have hfinal : ∀ d ∈ exec step (Db.start (runCalls .empty [.createProduct 1 widget])
      (List.replicate 2 fourUnits)) readsFirstActs,
      d.Finished ∧ d.store ≠ fourUnits.run (runCalls .empty [.createProduct 1 widget]) := by decide
  obtain ⟨d, hd⟩ := Option.isSome_iff_exists.mp hsome
  exact ⟨d, hd, hfinal d hd⟩

end OrderMesh.Inventory
