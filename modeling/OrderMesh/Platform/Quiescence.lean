import OrderMesh.Inventory.Deadlock
import OrderMesh.Library.Settling
import OrderMesh.Platform.System

namespace OrderMesh.Platform

open Inventory (Call Phase Store)
open Transition

/-- How many events can follow the event of a payload, one after the other. -/
def following : Payload → Nat
  | .orderCreated .. => 2
  | .orderCancelled .. | .stockReserved .. => 1
  | .stockUnavailable .. | .stockReleased .. | .shipmentCreated .. | .shipmentDelivered .. => 0

/-- The attempts that are left. -/
def Letter.left (l : Letter) : Nat := (maxRetries - l.retry).toNat + 1

def Stage.rank : Stage → Nat × Nat
  | .stock (.locking _ todo _) => (2, todo.length)
  | .setting _ | .unshipped | .stock _ => (3, 0)
  | .inserted _ => (2, 0)
  | .announcing _ => (1, 0)

/-- The events to follow, the attempts left, and how far the attempt is. -/
def Work.rank : Work → Nat × Nat × Nat × Nat
  | .cancelling _ _ => (3, 0, 0, 0)
  | .requested p => (following p + 1, 0, 0, 0)
  | .backoff l => (following l.payload, l.left, 5, 0)
  | .queued _ l => (following l.payload, l.left, 4, 0)
  | .running _ l stage => (following l.payload, l.left, stage.rank)
  | .dead _ _ => (0, 0, 0, 0)

/-- Lexicographically. -/
def Below (w w' : Work) : Prop :=
  Prod.Lex (· < ·) (Prod.Lex (· < ·) (Prod.Lex (· < ·) (· < ·))) w.rank w'.rank

theorem below_iff {w w' : Work} : Below w w' ↔ w.rank.1 < w'.rank.1 ∨ w.rank.1 = w'.rank.1 ∧
    (w.rank.2.1 < w'.rank.2.1 ∨ w.rank.2.1 = w'.rank.2.1 ∧
      (w.rank.2.2.1 < w'.rank.2.2.1 ∨ w.rank.2.2.1 = w'.rank.2.2.1 ∧
        w.rank.2.2.2 < w'.rank.2.2.2)) := by
  simp only [Below, Prod.lex_def]

theorem wellFounded_below : WellFounded Below := by
  have hlt : WellFounded fun n m : Nat => n < m := Nat.lt_wfRel.wf
  exact InvImage.wf Work.rank (hlt.prod_lex (hlt.prod_lex (hlt.prod_lex hlt)))

/-- The transaction of a handler has begun, and the rows it has still to lock are there. -/
def Begun (s : Store) : Phase → Prop
  | .checked _ => True
  | .locking _ todo _ => ∀ k ∈ todo, k ∈ s.products.keys
  | _ => False

/-- The stage is one of the queue's handlers, and what it announces has fewer to follow. -/
def Stage.Fits (s : Store) (l : Letter) : Queue → Stage → Prop
  | _, .announcing p => following p < following l.payload
  | .order, .setting _ => True
  | .inventory, .stock phase => (call l.payload).isSome ∧ phase.Apart ∧ Begun s phase
  | .shipping, .unshipped | .shipping, .inserted _ => 0 < following l.payload
  | _, _ => False

def Work.Fits (s : Store) : Work → Prop
  | .running q l stage => stage.Fits s l q
  | _ => True

theorem Work.Fits.mono {s t : Store} (hkeys : s.products.keys ⊆ t.products.keys) {w : Work}
    (h : w.Fits s) : w.Fits t := by
  cases w with
  | running q l stage =>
    cases stage with
    | stock phase =>
      cases q with
      | inventory =>
        obtain ⟨hcall, hapart, hbegun⟩ := h
        refine ⟨hcall, hapart, ?_⟩
        cases phase with
        | locking rows todo products => exact fun k hk => hkeys (hbegun k hk)
        | checked rows => trivial
        | _ => exact hbegun
      | _ => exact h
    | _ => cases q <;> exact h
  | _ => trivial

/-- Products are never deleted. -/
theorem keys_moved {s s' : Store} {c : Call} {phase phase' : Phase} {m : Inventory.Move}
    (h : Inventory.Moved s c phase m phase' s') : s.products.keys ⊆ s'.products.keys := by
  cases h with
  | inserted hcreate =>
    obtain ⟨-, -, -, rfl⟩ := Inventory.createProduct_eq_some hcreate
    intro k hk
    exact (s.products.mem_keys_set _ k _).mpr (.inl hk)
  | reserved =>
    unfold Inventory.reserveLocked
    split_ifs
    · exact s.products.subset_keys_update _
    · exact List.Subset.refl _
  | released => exact s.products.subset_keys_update _
  | _ => exact List.Subset.refl _

/-- What the inventory service answers with has fewer events to follow. -/
theorem following_answer {p p' : Payload} {ret : Inventory.Ret} (h : answer p ret = some p') :
    following p' < following p := by
  unfold answer at h
  split at h
  · cases h
    split_ifs
    · show 1 < 2
      omega
    · show 0 < 2
      omega
  · split_ifs at h
    cases h
    show 0 < 1
    omega
  · cases h

/-- What a step puts in the place of a piece of work. -/
def Lesser (s : Store) (w : Work) (new : List Work) : Prop := ∀ b ∈ new, Below b w ∧ b.Fits s

theorem lesser_nil (s : Store) (w : Work) : Lesser s w [] := fun b hb => by cases hb

theorem lesser_singleton {s : Store} {w b : Work} (hbelow : Below b w) (hfits : b.Fits s) :
    Lesser s w [b] := by
  intro b' hb'
  rw [List.mem_singleton.mp hb']
  exact ⟨hbelow, hfits⟩

theorem lesser_exchange {s : Store} {w : Work} {l : Letter} (h : Below (.queued .order l) w) :
    Lesser s w (exchange l) := by
  intro b hb
  obtain ⟨q, -, rfl⟩ := List.mem_map.mp hb
  exact ⟨h, trivial⟩

/-- An event goes to every queue with all its attempts, but fewer events follow it. -/
theorem lesser_announced {s : Store} {w : Work} {p : Payload} (h : following p < w.rank.1) :
    Lesser s w (exchange ⟨p, 0⟩) := lesser_exchange (below_iff.mpr (.inl h))

/-- A failed attempt leaves one attempt less. -/
theorem lesser_failed {s : Store} {w : Work} {q : Queue} {l : Letter}
    (hfollowing : w.rank.1 = following l.payload) (hleft : w.rank.2.1 = l.left) :
    Lesser s w [failed q l] := by
  unfold failed
  split_ifs with hlast
  · refine lesser_singleton (below_iff.mpr ?_) trivial
    have hpos : 0 < l.left := Nat.succ_pos _
    show 0 < w.rank.1 ∨ 0 = w.rank.1 ∧ (0 < w.rank.2.1 ∨ _)
    omega
  · refine lesser_singleton (below_iff.mpr (.inr ⟨hfollowing.symm, .inl ?_⟩)) trivial
    rw [hleft]
    show (maxRetries - (l.retry + 1)).toNat + 1 < (maxRetries - l.retry).toNat + 1
    omega

/-- The same attempt, one stage further. -/
theorem lesser_stage {s : Store} {w : Work} {q : Queue} {l : Letter} {stage : Stage}
    (hfollowing : w.rank.1 = following l.payload) (hleft : w.rank.2.1 = l.left)
    (hstage : stage.rank.1 < w.rank.2.2.1 ∨
      stage.rank.1 = w.rank.2.2.1 ∧ stage.rank.2 < w.rank.2.2.2)
    (hfits : stage.Fits s l q) : Lesser s w [.running q l stage] :=
  lesser_singleton (below_iff.mpr (.inr ⟨hfollowing.symm, .inr ⟨hleft.symm, hstage⟩⟩)) hfits

theorem call_ne_createProduct {p : Payload} {id : Int} {payload : Inventory.ProductCreate} :
    call p ≠ some (.createProduct id payload) := by
  unfold call
  split
  · simp
  · simp
  · simp

theorem lesser_afterStock {s s' : Store} {w : Work} {l : Letter} {c : Call} {phase phase' : Phase}
    {m : Inventory.Move} (hc : call l.payload = some c)
    (hmoved : Inventory.Moved s c phase m phase' s') (hapart : phase.Apart)
    (hfollowing : w.rank.1 = following l.payload) (hleft : w.rank.2.1 = l.left)
    (hready : phase = .ready → w.rank.2.2 = (4, 0))
    (hbegun : phase ≠ .ready → w.rank.2.2 = (Stage.stock phase).rank ∧ Begun s phase) :
    Lesser s' w (afterStock l phase') := by
  have hsome : (call l.payload).isSome := by simp [hc]
  have hapart' := hmoved.apart hapart
  have hfinished : ∀ ret, 1 < w.rank.2.2.1 → Lesser s' w (afterStock l (.finished ret)) := by
    intro ret hstage
    simp only [afterStock]
    split
    · rename_i p hp
      exact lesser_stage hfollowing hleft (.inl hstage) (following_answer hp)
    · exact lesser_nil s' w
  cases hmoved with
  | inserted hcreate => exact absurd hc call_ne_createProduct
  | readNone hrows =>
    have hstage := hready rfl
    refine lesser_stage hfollowing hleft (.inl ?_) ⟨hsome, hapart', trivial⟩
    simp [hstage, Stage.rank]
  | readDone hrows =>
    have hstage := hready rfl
    exact hfinished _ (by simp [hstage])
  | readEmpty hrows =>
    have hstage := hready rfl
    exact hfinished _ (by simp [hstage])
  | readRows hrows =>
    have hstage := hready rfl
    refine lesser_stage hfollowing hleft (.inl ?_) ⟨hsome, hapart', trivial⟩
    simp [hstage, Stage.rank]
  | snapshot =>
    obtain ⟨hstage, -⟩ := hbegun (by simp)
    refine lesser_stage hfollowing hleft (.inl ?_) ⟨hsome, hapart', ?_⟩
    · simp [hstage, Stage.rank]
    · intro k hk
      exact of_decide_eq_true (List.mem_filter.mp hk).2
  | @locked call rows todo products productId product hmem hget =>
    obtain ⟨hstage, hrows⟩ := hbegun (by simp)
    refine lesser_stage hfollowing hleft (.inr ?_) ⟨hsome, hapart', ?_⟩
    · have hpos := List.length_pos_of_mem hmem
      simp [hstage, Stage.rank, List.length_erase_of_mem hmem, hpos]
    · exact fun k hk => hrows k (List.mem_of_mem_erase hk)
  | reserved =>
    obtain ⟨hstage, -⟩ := hbegun (by simp)
    exact hfinished _ (by simp [hstage, Stage.rank])
  | released =>
    obtain ⟨hstage, -⟩ := hbegun (by simp)
    exact hfinished _ (by simp [hstage, Stage.rank])

/-- One step of a piece of work: everything it leaves behind is less. -/
theorem advanced_lesser {d e : State} {w : Work} {m : Move} {new : List Work}
    (hfits : w.Fits d.stock) (h : Advanced d w m e new) :
    Lesser e.stock w new ∧ d.stock.products.keys ⊆ e.stock.products.keys := by
  have hsame := List.Subset.refl d.stock.products.keys
  cases h with
  | cancelled =>
    refine ⟨lesser_singleton (below_iff.mpr (.inl ?_)) trivial, hsame⟩
    show 2 < 3
    omega
  | cancelFailed => exact ⟨lesser_nil _ _, hsame⟩
  | requested => exact ⟨lesser_announced (Nat.lt_succ_self _), hsame⟩
  | requestFailed => exact ⟨lesser_nil _ _, hsame⟩
  | republished => exact ⟨lesser_exchange (below_iff.mpr (by simp [Work.rank])), hsame⟩
  | @orderRead l =>
    refine ⟨fun b hb => ?_, hsame⟩
    obtain ⟨status, -, rfl⟩ := mem_readOrder hb
    exact ⟨below_iff.mpr (by simp [Work.rank, Stage.rank]), trivial⟩
  | @shipmentRead l =>
    refine ⟨fun b hb => ?_, hsame⟩
    obtain ⟨htype, hwork⟩ := mem_readShipment hb
    have hpos : 0 < following l.payload := by
      cases hl : l.payload with
      | stockReserved => exact Nat.one_pos
      | _ =>
        rw [hl] at htype
        cases htype
    rcases hwork with ⟨shipment, -, rfl⟩ | rfl
    · exact ⟨below_iff.mpr (by simp [Work.rank, Stage.rank]), hpos⟩
    · exact ⟨below_iff.mpr (by simp [Work.rank, Stage.rank]), hpos⟩
  | unhandled hc => exact ⟨lesser_nil _ _, hsame⟩
  | stockRead hc hmoved =>
    have hapart : Phase.ready.Apart := ⟨List.nodup_nil, fun k hk => by cases hk⟩
    exact ⟨lesser_afterStock hc hmoved hapart rfl rfl (fun _ => rfl) (absurd rfl),
      keys_moved hmoved⟩
  | queuedFailed => exact ⟨lesser_failed rfl rfl, hsame⟩
  | statusSet => exact ⟨lesser_nil _ _, hsame⟩
  | @stockMoved l c m phase phase' s hc hmoved =>
    obtain ⟨-, hapart, hbegun⟩ := hfits
    refine ⟨lesser_afterStock hc hmoved hapart rfl rfl ?_ fun _ => ⟨rfl, hbegun⟩,
      keys_moved hmoved⟩
    intro hready
    rw [hready] at hbegun
    exact hbegun.elim
  | shipped hinsert =>
    exact ⟨lesser_stage rfl rfl (.inl (by simp [Work.rank, Stage.rank])) hfits, hsame⟩
  | shipRefused => exact ⟨lesser_failed rfl rfl, hsame⟩
  | refreshed =>
    exact ⟨lesser_stage rfl rfl (.inl (by simp [Work.rank, Stage.rank])) hfits, hsame⟩
  | @announced q l p =>
    have hless : following p < following l.payload := by
      cases q <;> exact hfits
    exact ⟨lesser_announced hless, hsame⟩
  | runningFailed => exact ⟨lesser_failed rfl rfl, hsame⟩

def State.Fits (d : State) : Prop := ∀ w ∈ d.flight, w.Fits d.stock

/-- What a step adds fits, and products are not deleted. -/
theorem fits_append {d e : State} {new : List Work} (hd : d.Fits)
    (hkeys : d.stock.products.keys ⊆ e.stock.products.keys) (hnew : ∀ w ∈ new, w.Fits e.stock)
    (hflight : e.flight ⊆ d.flight ++ new) : e.Fits := by
  intro w hw
  rcases List.mem_append.mp (hflight hw) with hold | hadded
  · exact (hd w hold).mono hkeys
  · exact hnew w hadded

theorem step_fits {d e : State} {a : Label} (hd : d.Fits) (h : step d a = some e) : e.Fits := by
  have hsame := List.Subset.refl d.stock.products.keys
  cases step_stepped h with
  | refused => exact hd
  | created hnew =>
    refine fits_append hd hsame ?_ (List.Subset.refl _)
    intro w hw
    rw [List.mem_singleton.mp hw]
    trivial
  | loaded hload =>
    refine fits_append hd hsame ?_ (List.Subset.refl _)
    intro w hw
    rw [List.mem_singleton.mp hw]
    trivial
  | productCreated hcreate =>
    obtain ⟨-, -, -, rfl⟩ := Inventory.createProduct_eq_some hcreate
    intro w hw
    exact (hd w hw).mono fun k hk => (d.stock.products.mem_keys_set _ k _).mpr (.inl hk)
  | shipmentUpdated hget =>
    refine fits_append hd hsame ?_ (List.Subset.refl _)
    intro w hw
    split_ifs at hw
    · rw [List.mem_singleton.mp hw]
      trivial
    · cases hw
  | worked hw hadvanced =>
    obtain ⟨hless, hkeys⟩ := advanced_lesser (hd _ (List.mem_of_getElem? hw)) hadvanced
    refine fits_append hd hkeys (fun b hb => (hless b hb).2) ?_
    intro b hb
    exact List.mem_append.mpr (Pool.mem_of_mem_replace hb)

/-- A step of the work in flight. -/
def work (d : State) (m : Nat × Move) : Option State := step d (.work m.1 m.2)

theorem work_eq {d : State} {i : Nat} {w : Work} (hw : d.flight[i]? = some w) (m : Move) :
    work d (i, m) = (advance d w m).map fun r =>
      { r.1 with flight := Pool.replace d.flight i r.2 } := by
  simp only [work, step, hw]

theorem step_work_eq_some {d e : State} {i : Nat} {m : Move} (h : step d (.work i m) = some e) :
    ∃ w t new, d.flight[i]? = some w ∧ advance d w m = some (t, new) ∧
      e = { t with flight := Pool.replace d.flight i new } := by
  cases hw : d.flight[i]? with
  | none =>
    simp only [step, hw] at h
    cases h
  | some w =>
    simp only [step, hw] at h
    obtain ⟨⟨t, new⟩, hadv, rfl⟩ := Option.map_eq_some_iff.mp h
    exact ⟨w, t, new, rfl, hadv, rfl⟩

theorem work_consumed {d e : State} {m : Nat × Move} (hd : d.Fits) (h : work d m = some e) :
    Pool.Consumed Below d.flight e.flight := by
  obtain ⟨w, t, new, hw, hadv, rfl⟩ := step_work_eq_some h
  obtain ⟨hless, -⟩ := advanced_lesser (hd w (List.mem_of_getElem? hw)) (advance_advanced hadv)
  exact .replaced hw fun b hb => (hless b hb).1

/-- A move without a failure. -/
def Succeeds (m : Nat × Move) : Prop := m.2 ≠ .fail

def Work.Dead (w : Work) : Prop := ∃ q l, w = .dead q l

/-- A handler of the inventory service, each of whose rows to come another handler has locked. -/
def Blocked (d : State) (w : Work) : Prop :=
  ∃ l rows todo products, w = .running .inventory l (.stock (.locking rows todo products)) ∧
    todo ≠ [] ∧ ∀ k ∈ todo, ∃ w' ∈ d.flight, w' ≠ w ∧ k ∈ w'.locks

theorem stockStep_eq_none {d : State} {l : Letter} {c : Call} {phase : Phase} {m : Inventory.Move}
    (hc : call l.payload = some c) (hfree : d.lockFree m = true)
    (h : stockStep d l phase m = none) : Inventory.advance d.stock c phase m = none := by
  simp only [stockStep, hc, hfree, if_true] at h
  exact Option.map_eq_none_iff.mp h

/-- The handler has begun its transaction and has still rows to lock. -/
def Work.Locking (w : Work) : Prop :=
  ∃ l rows todo products, w = .running .inventory l (.stock (.locking rows todo products)) ∧
    todo ≠ []

/-- A handler that can neither read nor commit has rows to lock. -/
theorem locking_of_idle {d : State} {l : Letter} {phase : Phase}
    (hfits : (Stage.stock phase).Fits d.stock l .inventory)
    (hnone : ∀ m, (∀ k, m ≠ .lock k) → stockStep d l phase m = none) :
    (Work.running .inventory l (.stock phase)).Locking := by
  obtain ⟨hcall, -, hbegun⟩ := hfits
  obtain ⟨c, hc⟩ := Option.isSome_iff_exists.mp hcall
  cases phase with
  | ready => exact hbegun.elim
  | finished ret => exact hbegun.elim
  | checked rows =>
    have hsnapshot := stockStep_eq_none hc rfl (hnone .snapshot (by simp))
    cases c <;> cases hsnapshot
  | locking rows todo products =>
    refine ⟨l, rows, todo, products, rfl, ?_⟩
    intro hnil
    subst hnil
    have hfinish := stockStep_eq_none hc rfl (hnone .finish (by simp))
    cases c with
    | createProduct id payload => exact call_ne_createProduct hc
    | reserveForOrder orderId items => cases hfinish
    | releaseForOrder orderId => cases hfinish

/-- A handler that cannot lock a row waits for another one that holds it. -/
theorem exists_holder {d : State} {l : Letter} {rows : List (Int × Inventory.InventoryReservation)}
    {todo : List Int} {products : Dict Int Inventory.Product} {k : Int}
    (hfits : (Stage.stock (.locking rows todo products)).Fits d.stock l .inventory) (hk : k ∈ todo)
    (hnone : stockStep d l (.locking rows todo products) (.lock k) = none) :
    ∃ w ∈ d.flight, w ≠ .running .inventory l (.stock (.locking rows todo products)) ∧
      k ∈ w.locks := by
  obtain ⟨hcall, hapart, hbegun⟩ := hfits
  obtain ⟨c, hc⟩ := Option.isSome_iff_exists.mp hcall
  by_contra hnot
  have hfree : d.lockFree (.lock k) = true := by
    simp only [State.lockFree, List.all_eq_true, decide_eq_true_eq]
    intro w hw hlocks
    refine hnot ⟨w, hw, ?_, hlocks⟩
    rintro rfl
    exact hapart.2 k hk hlocks
  obtain ⟨product, hproduct⟩ :=
    Option.isSome_iff_exists.mp ((d.stock.products.mem_keys_iff k).mp (hbegun k hk))
  have hlock := stockStep_eq_none hc hfree hnone
  cases c <;> simp [Inventory.advance, hk, hproduct] at hlock

/-- Everything but a handler with rows to lock can go on. -/
theorem dead_or_locking {d : State} {w : Work} (hfits : w.Fits d.stock)
    (hnone : ∀ m, m ≠ .fail → (∀ k, m ≠ .stock (.lock k)) → advance d w m = none) :
    w.Dead ∨ w.Locking := by
  have hgo := hnone .go (by simp) (by simp)
  cases w with
  | cancelling id order => cases hgo
  | requested p => cases hgo
  | backoff l => cases hgo
  | dead q l => exact .inl ⟨q, l, rfl⟩
  | queued q l =>
    cases q with
    | order => cases hgo
    | shipping => cases hgo
    | inventory =>
      cases hcall : call l.payload with
      | none => simp [advance, hcall] at hgo
      | some c =>
        have hread := hnone (.stock .read) (by simp) (by simp)
        cases c with
        | createProduct id payload => exact absurd hcall call_ne_createProduct
        | _ => simp [advance, stockStep, hcall, State.lockFree, Inventory.advance] at hread
  | running q l stage =>
    cases stage with
    | announcing p => cases q <;> cases hgo
    | setting status =>
      cases q with
      | order => cases hgo
      | _ => exact absurd hfits id
    | stock phase =>
      cases q with
      | inventory =>
        refine .inr (locking_of_idle hfits fun m hm => hnone (.stock m) (by simp) ?_)
        intro k hk
        exact hm k (Move.stock.inj hk)
      | _ => exact absurd hfits id
    | unshipped =>
      cases q with
      | shipping =>
        have hship := hnone (.ship "DHL" 2026) (by simp) (by simp)
        simp only [advance] at hship
        rw [if_pos (by decide)] at hship
        split at hship <;> cases hship
      | _ => exact absurd hfits id
    | inserted shipment =>
      cases q with
      | shipping => cases hgo
      | _ => exact absurd hfits id

/-- Where nothing can go on, what is left is dead or waits for locks. -/
theorem dead_or_blocked {d : State} (hd : d.Fits) (hidle : Idle work Succeeds d) {w : Work}
    (hw : w ∈ d.flight) : w.Dead ∨ Blocked d w := by
  obtain ⟨i, hi⟩ := List.getElem?_of_mem hw
  have hnone : ∀ m, m ≠ .fail → advance d w m = none := by
    intro m hm
    have hstuck := hidle (i, m) hm
    rw [work_eq hi] at hstuck
    exact Option.map_eq_none_iff.mp hstuck
  have hfits := hd w hw
  cases dead_or_locking hfits fun m hm _ => hnone m hm with
  | inl hdead => exact .inl hdead
  | inr hlocking =>
    obtain ⟨l, rows, todo, products, rfl, hne⟩ := hlocking
    refine .inr ⟨l, rows, todo, products, rfl, hne, ?_⟩
    intro k hk
    exact exists_holder hfits hk (hnone (.stock (.lock k)) (by simp))

/-- However the services are scheduled and whatever fails, their work in flight comes to an end.
It can always be brought to an end without failures, and where it stands still, nothing but
dead letters is left, and handlers that wait for each other's row locks. -/
theorem platform_settles {as : List Label} {d : State} (h : exec step .empty as = some d) :
    Settles work d ∧
      (∃ ms e, (∀ m ∈ ms, Succeeds m) ∧ exec work d ms = some e ∧ Idle work Succeeds e ∧
        ∀ w ∈ e.flight, w.Dead ∨ Blocked e w) ∧
      (Idle work Succeeds d → ∀ w ∈ d.flight, w.Dead ∨ Blocked d w) := by
  have hempty : State.empty.Fits := fun w hw => by cases hw
  have hd : d.Fits := exec_invariant State.Fits (fun _ _ _ hs => step_fits hs) hempty h
  have hdecreasing := InvImage.wf State.flight (Pool.wellFounded_consumed wellFounded_below)
  have hstep : ∀ s m t, s.Fits → work s m = some t →
      t.Fits ∧ Pool.Consumed Below s.flight t.flight :=
    fun s m t hs ht => ⟨step_fits hs ht, work_consumed hs ht⟩
  refine ⟨settles_of_decreasing State.Fits hdecreasing hstep hd, ?_, ?_⟩
  · obtain ⟨ms, e, hms, hrun, he, hidle⟩ := exists_idle State.Fits hdecreasing hstep Succeeds hd
    exact ⟨ms, e, hms, hrun, hidle, fun w hw => dead_or_blocked he hidle hw⟩
  · exact fun hidle w hw => dead_or_blocked hd hidle hw

/-- An order is placed and a cancel of it is on the way. -/
def placedAndCancelling : List Label :=
  [.createProduct 1 Inventory.widget, .createOrder 7 Orders.oneItem, .work 0 .go,
    .cancelOrder ⟨false, some 7⟩ 1]

theorem platform_settles_placedAndCancelling :
    ∃ d, exec step .empty placedAndCancelling = some d ∧ Settles work d ∧
      ∃ ms e, (∀ m ∈ ms, Succeeds m) ∧ exec work d ms = some e ∧ Idle work Succeeds e ∧
        ∀ w ∈ e.flight, w.Dead ∨ Blocked e w := by
  have hrun : (exec step .empty placedAndCancelling).isSome := by decide +kernel
  obtain ⟨d, hd⟩ := Option.isSome_iff_exists.mp hrun
  obtain ⟨hsettles, hidle, -⟩ := platform_settles hd
  exact ⟨d, hd, hsettles, hidle⟩

end OrderMesh.Platform
