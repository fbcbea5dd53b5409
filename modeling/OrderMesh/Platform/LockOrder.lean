import OrderMesh.Platform.Quiescence

namespace OrderMesh.Platform

open Inventory (Phase Store)
open Transition

/-- The rows a handler has still to lock. -/
def Work.todo : Work → List Int
  | .running _ _ (.stock phase) => phase.todo
  | _ => []

/-- A handler locks the first of the rows it has still to lock. -/
def Ascending (d : State) : Label → Prop
  | .work i (.stock (.lock k)) => ∀ w ∈ d.flight[i]?, ∀ k' ∈ w.todo, k ≤ k'
  | _ => True

instance (d : State) (a : Label) : Decidable (Ascending d a) := by
  unfold Ascending
  split <;> infer_instance

/-- A step of the work in flight that locks rows in order. -/
def workInOrder : State → Nat × Move → Option State :=
  restrict work fun d m => Ascending d (.work m.1 m.2)

/-- The rows it has locked come before those it has still to lock. -/
def Work.Sorted (w : Work) : Prop := ∀ k ∈ w.locks, ∀ k' ∈ w.todo, k ≤ k'

def State.Sorted (d : State) : Prop := ∀ w ∈ d.flight, w.Sorted

theorem sorted_of_todo {w : Work} (h : w.todo = []) : w.Sorted := by
  intro k _ k' hk'
  rw [h] at hk'
  cases hk'

theorem sorted_exchange {l : Letter} {w : Work} (h : w ∈ exchange l) : w.Sorted := by
  obtain ⟨q, -, rfl⟩ := List.mem_map.mp h
  exact sorted_of_todo rfl

theorem sorted_failed (q : Queue) (l : Letter) : (failed q l).Sorted := by
  apply sorted_of_todo
  unfold failed
  split_ifs <;> rfl

/-- A transaction that locks the first of its rows keeps them in order. -/
theorem sorted_afterStock {s s' : Store} {c : Inventory.Call} {phase phase' : Phase}
    {m : Inventory.Move} {l : Letter} {w : Work} (hmoved : Inventory.Moved s c phase m phase' s')
    (hsorted : ∀ k ∈ phase.locks, ∀ k' ∈ phase.todo, k ≤ k')
    (hfirst : ∀ k, m = .lock k → ∀ k' ∈ phase.todo, k ≤ k') (hw : w ∈ afterStock l phase') :
    w.Sorted := by
  have hfinished : ∀ ret, w ∈ afterStock l (.finished ret) → w.Sorted := by
    intro ret hw
    simp only [afterStock] at hw
    split at hw
    · rw [List.mem_singleton.mp hw]
      exact sorted_of_todo rfl
    · cases hw
  cases hmoved with
  | inserted => exact hfinished _ hw
  | readDone => exact hfinished _ hw
  | readEmpty => exact hfinished _ hw
  | reserved => exact hfinished _ hw
  | released => exact hfinished _ hw
  | readNone =>
    rw [List.mem_singleton.mp hw]
    exact sorted_of_todo rfl
  | readRows =>
    rw [List.mem_singleton.mp hw]
    exact sorted_of_todo rfl
  | snapshot =>
    rw [List.mem_singleton.mp hw]
    intro k hk
    cases hk
  | @locked c rows todo products productId product hmem hget =>
    rw [List.mem_singleton.mp hw]
    intro k hk k' hk'
    have htodo : k' ∈ todo := List.mem_of_mem_erase hk'
    rcases (products.mem_keys_set productId k product).mp hk with hold | rfl
    · exact hsorted k hold k' htodo
    · exact hfirst _ rfl k' htodo

theorem advanced_sorted {d e : State} {i : Nat} {w : Work} {m : Move} {new : List Work}
    (hsorted : w.Sorted) (hascending : Ascending d (.work i m)) (hw : d.flight[i]? = some w)
    (h : Advanced d w m e new) : ∀ b ∈ new, b.Sorted := by
  intro b hb
  have hsingleton : ∀ x : Work, x.todo = [] → b ∈ [x] → b.Sorted := by
    intro x hx hb
    rw [List.mem_singleton.mp hb]
    exact sorted_of_todo hx
  cases h with
  | cancelled => exact hsingleton _ rfl hb
  | cancelFailed => cases hb
  | requested => exact sorted_exchange hb
  | requestFailed => cases hb
  | republished => exact sorted_exchange hb
  | orderRead =>
    obtain ⟨status, -, rfl⟩ := mem_readOrder hb
    exact sorted_of_todo rfl
  | shipmentRead =>
    obtain ⟨-, ⟨shipment, -, rfl⟩ | rfl⟩ := mem_readShipment hb
    · exact sorted_of_todo rfl
    · exact sorted_of_todo rfl
  | unhandled => cases hb
  | stockRead hc hmoved =>
    refine sorted_afterStock hmoved ?_ ?_ hb
    · intro k hk
      cases hk
    · intro k _ k' hk'
      cases hk'
  | queuedFailed =>
    rw [List.mem_singleton.mp hb]
    exact sorted_failed _ _
  | statusSet => cases hb
  | @stockMoved l c m phase phase' s hc hmoved =>
    refine sorted_afterStock hmoved hsorted ?_ hb
    rintro k rfl
    exact hascending _ hw
  | shipped => exact hsingleton _ rfl hb
  | shipRefused =>
    rw [List.mem_singleton.mp hb]
    exact sorted_failed _ _
  | refreshed => exact hsingleton _ rfl hb
  | announced => exact sorted_exchange hb
  | runningFailed =>
    rw [List.mem_singleton.mp hb]
    exact sorted_failed _ _

theorem step_sorted {d e : State} {a : Label} (hd : d.Sorted) (hascending : Ascending d a)
    (h : step d a = some e) : e.Sorted := by
  have hadded : ∀ new : List Work, (∀ w ∈ new, w.Sorted) → ∀ w ∈ d.flight ++ new, w.Sorted := by
    intro new hnew w hw
    cases List.mem_append.mp hw with
    | inl hold => exact hd w hold
    | inr hadded => exact hnew w hadded
  cases step_stepped h with
  | refused => exact hd
  | created =>
    apply hadded
    intro w hw
    rw [List.mem_singleton.mp hw]
    exact sorted_of_todo rfl
  | loaded =>
    apply hadded
    intro w hw
    rw [List.mem_singleton.mp hw]
    exact sorted_of_todo rfl
  | productCreated => exact hd
  | shipmentUpdated =>
    apply hadded
    intro w hw
    split_ifs at hw
    · rw [List.mem_singleton.mp hw]
      exact sorted_of_todo rfl
    · cases hw
  | worked hw hadvanced =>
    intro b hb
    cases Pool.mem_of_mem_replace hb with
    | inl hold => exact hd b hold
    | inr hnew =>
      have hsorted := hd _ (List.mem_of_getElem? hw)
      exact advanced_sorted hsorted hascending hw hadvanced b hnew

/-- The row a handler locks next. -/
def Work.Asks (w : Work) (k : Int) : Prop := k ∈ w.todo ∧ ∀ k' ∈ w.todo, k ≤ k'

theorem Work.Locking.asks {w : Work} (h : w.Locking) : ∃ k, w.Asks k := by
  obtain ⟨l, rows, todo, products, rfl, hne⟩ := h
  obtain ⟨k, hk⟩ := Option.isSome_iff_exists.mp (List.isSome_min?_of_ne_nil hne)
  exact ⟨k, List.min?_eq_some_iff.mp hk⟩

/-- Where no row can be locked in order, each handler with rows to lock waits for another one. -/
theorem waits_of_idle {d : State} (hd : d.Fits) {w : Work} (hw : w ∈ d.flight) {k : Int}
    (hlocking : w.Locking) (hk : k ∈ w.todo)
    (hnone : advance d w (.stock (.lock k)) = none) : ∃ u ∈ d.flight, k ∈ u.locks := by
  obtain ⟨l, rows, todo, products, rfl, -⟩ := hlocking
  obtain ⟨u, hu, -, hlocks⟩ := exists_holder (hd _ hw) hk hnone
  exact ⟨u, hu, hlocks⟩

/-- A handler asks for rows above those it holds. -/
theorem asks_above {d : State} (hd : d.Fits) (hsorted : d.Sorted) {w : Work} (hw : w ∈ d.flight)
    {k k' : Int} (hk : k ∈ w.locks) (hk' : w.Asks k') : k < k' := by
  have hle := hsorted w hw k hk k' hk'.1
  have hfits := hd w hw
  unfold Work.locks at hk
  split at hk
  · rename_i q l phase
    have hapart : phase.Apart := by
      cases q with
      | inventory => exact hfits.2.1
      | _ => exact hfits.elim
    have hne : k ≠ k' := by
      rintro rfl
      exact hapart.2 k hk'.1 hk
    omega
  · cases hk

/-- Where nothing can go on, nothing waits for locks. -/
theorem dead_of_idle {d : State} (hd : d.Fits) (hsorted : d.Sorted)
    (hidle : Idle workInOrder Succeeds d) : ∀ w ∈ d.flight, w.Dead := by
  have hnone : ∀ w ∈ d.flight, ∀ m, m ≠ .fail →
      (∀ k, m = .stock (.lock k) → ∀ k' ∈ w.todo, k ≤ k') → advance d w m = none := by
    intro w hw m hm hfirst
    obtain ⟨i, hi⟩ := List.getElem?_of_mem hw
    have hascending : Ascending d (.work i m) := by
      unfold Ascending
      split
      · rename_i heq
        cases heq
        intro w' hw'
        rw [hi] at hw'
        cases hw'
        exact hfirst _ rfl
      · trivial
    have hstuck : work d (i, m) = none := (restrict_eq_none hascending).mp (hidle (i, m) hm)
    rw [work_eq hi] at hstuck
    exact Option.map_eq_none_iff.mp hstuck
  have hleft : ∀ w ∈ d.flight, w.Dead ∨ w.Locking := by
    intro w hw
    apply dead_or_locking (hd w hw)
    intro m hm hlock
    apply hnone w hw m hm
    intro k hk
    exact absurd hk (hlock k)
  classical
  have hnil : (d.flight.filter fun w => w.Locking) = [] := by
    apply @WaitFor.eq_nil_of_ascending _ _ Work.Asks fun w k => k ∈ w.locks
    · intro w hw
      obtain ⟨hmem, hdecide⟩ := List.mem_filter.mp hw
      have hlocking : w.Locking := of_decide_eq_true hdecide
      obtain ⟨k, hk⟩ := hlocking.asks
      have hstuck : advance d w (.stock (.lock k)) = none := by
        apply hnone w hmem _ (by simp)
        intro k' heq
        cases heq
        exact hk.2
      obtain ⟨u, hu, hlocks⟩ := waits_of_idle hd hmem hlocking hk.1 hstuck
      refine ⟨u, List.mem_filter.mpr ⟨hu, decide_eq_true ?_⟩, k, hk, hlocks⟩
      cases hleft u hu with
      | inl hdead =>
        obtain ⟨q, l, rfl⟩ := hdead
        cases hlocks
      | inr hlocking => exact hlocking
    · intro w hw k k' hk hk'
      exact asks_above hd hsorted (List.mem_of_mem_filter hw) hk hk'
  intro w hw
  cases hleft w hw with
  | inl hdead => exact hdead
  | inr hlocking =>
    have hmem : w ∈ d.flight.filter fun w => w.Locking :=
      List.mem_filter.mpr ⟨hw, decide_eq_true hlocking⟩
    rw [hnil] at hmem
    cases hmem

/-- If rows are locked in ascending order, the work in flight comes to an end however it is
scheduled and whatever fails, and then nothing but dead letters is left. -/
theorem platform_drains {as : List Label} {d : State} (hascending : Meets step Ascending .empty as)
    (h : exec step .empty as = some d) :
    Settles workInOrder d ∧
      (∃ ms e, (∀ m ∈ ms, Succeeds m) ∧ exec workInOrder d ms = some e ∧
        ∀ w ∈ e.flight, w.Dead) ∧
      (Idle workInOrder Succeeds d → ∀ w ∈ d.flight, w.Dead) := by
  have hfits : State.empty.Fits := fun w hw => by cases hw
  have hsorted : State.empty.Sorted := fun w hw => by cases hw
  have hd : d.Fits ∧ d.Sorted := by
    refine exec_invariant_of_meets (fun d => d.Fits ∧ d.Sorted) ?_ ⟨hfits, hsorted⟩ hascending h
    intro s a t hs ha ht
    exact ⟨step_fits hs.1 ht, step_sorted hs.2 ha ht⟩
  have hdecreasing := InvImage.wf State.flight (Pool.wellFounded_consumed wellFounded_below)
  have hstep : ∀ s m t, s.Fits ∧ s.Sorted → workInOrder s m = some t →
      (t.Fits ∧ t.Sorted) ∧ Pool.Consumed Below s.flight t.flight := by
    intro s m t hs ht
    obtain ⟨ha, ht⟩ := restrict_eq_some.mp ht
    exact ⟨⟨step_fits hs.1 ht, step_sorted hs.2 ha ht⟩, work_consumed hs.1 ht⟩
  refine ⟨settles_of_decreasing _ hdecreasing hstep hd, ?_, dead_of_idle hd.1 hd.2⟩
  obtain ⟨ms, e, hms, hrun, he, hidle⟩ := exists_idle _ hdecreasing hstep Succeeds hd
  exact ⟨ms, e, hms, hrun, dead_of_idle he.1 he.2 hidle⟩

/-- An order of two products. -/
def bothProducts : Orders.OrderCreate where
  items := Orders.oneItem.items ++ Orders.oneItem.items.map fun item => { item with productId := 2 }
  items_ne_nil := by simp [Orders.oneItem]

/-- Two orders of the same products; the second handler waits for the row the first has locked. -/
def secondWaits : List Label :=
  [.createProduct 1 Inventory.widget, .createProduct 2 Inventory.gadget,
    .createOrder 7 bothProducts, .createOrder 8 bothProducts, .work 0 .go, .work 0 .go,
    .work 0 (.stock .read), .work 0 (.stock .read), .work 0 (.stock .snapshot),
    .work 0 (.stock .snapshot), .work 0 (.stock (.lock 1))]

theorem platform_drains_secondWaits :
    ∃ d, exec step .empty secondWaits = some d ∧
      ∃ ms e, (∀ m ∈ ms, Succeeds m) ∧ exec workInOrder d ms = some e ∧
        ∀ w ∈ e.flight, w.Dead := by
  have hrun : (exec step .empty secondWaits).isSome := by decide +kernel
  have hascending : Meets step Ascending .empty secondWaits := by decide +kernel
  obtain ⟨d, hd⟩ := Option.isSome_iff_exists.mp hrun
  obtain ⟨-, hleft, -⟩ := platform_drains hascending hd
  exact ⟨d, hd, hleft⟩

end OrderMesh.Platform
