import OrderMesh.Library.Linearization
import OrderMesh.Library.Pool
import OrderMesh.Library.Transition
import OrderMesh.Order.Lifecycle

namespace OrderMesh.Orders

open Linearization Transition

inductive StatusEvent
  | stockReserved
  | stockUnavailable
  | shipmentCreated
  deriving DecidableEq

/-- The status the handler of the event sets. -/
def StatusEvent.target : StatusEvent → OrderStatus
  | .stockReserved => .confirmed
  | .stockUnavailable => .cancelled
  | .shipmentCreated => .shipped

/-- What the operations on one order share: its status, and whether
`OrderCancelled` has been published. -/
structure Row where
  status : OrderStatus
  published : Bool
  deriving DecidableEq

inductive Op
  | cancel
  | event (e : StatusEvent)
  deriving DecidableEq

inductive Answer
  | success
  | conflict
  | handled
  deriving DecidableEq

/-- An operation run alone. -/
def Op.apply (op : Op) (r : Row) : Option (Answer × Row) :=
  match op with
  | .cancel =>
      if notCancellable r.status then some (.conflict, r) else some (.success, ⟨.cancelled, true⟩)
  | .event e =>
      if r.status = e.target then some (.handled, r)
      else some (.handled, { r with status := e.target })

inductive CancelPhase
  | ready
  | loaded
  | done (answer : Answer)
  deriving DecidableEq

inductive HandlerPhase
  | ready
  | loaded
  | done
  deriving DecidableEq

structure Race where
  row : Row
  cancel : CancelPhase
  handlers : List (StatusEvent × HandlerPhase)

inductive RaceAct
  | readCancel
  | commitCancel
  | read (i : Nat)
  | commit (i : Nat)
  deriving DecidableEq

def raceStep (d : Race) : RaceAct → Option Race
  | .readCancel =>
      if d.cancel = .ready then
        if notCancellable d.row.status then some { d with cancel := .done .conflict }
        else some { d with cancel := .loaded }
      else none
  | .commitCancel =>
      if d.cancel = .loaded then some { d with row := ⟨.cancelled, true⟩, cancel := .done .success }
      else none
  | .read i =>
      match d.handlers[i]? with
      | some (e, .ready) =>
          if d.row.status = e.target then some { d with handlers := d.handlers.set i (e, .done) }
          else some { d with handlers := d.handlers.set i (e, .loaded) }
      | _ => none
  | .commit i =>
      match d.handlers[i]? with
      | some (e, .loaded) =>
          some { d with
            row := { d.row with status := e.target }
            handlers := d.handlers.set i (e, .done) }
      | _ => none

/-- No operation has started. -/
def Race.start (status : OrderStatus) (events : List StatusEvent) : Race :=
  ⟨⟨status, false⟩, .ready, events.map fun e => (e, .ready)⟩

def Race.Finished (d : Race) : Prop :=
  (∃ answer, d.cancel = .done answer) ∧ ∀ h ∈ d.handlers, h.2 = .done

def handled (events : List StatusEvent) : List (Op × Answer) :=
  events.map fun e => (.event e, .handled)

/-- The final row and the answers are those of the same operations one after another. -/
def Race.Serialisable (status : OrderStatus) (events : List StatusEvent) (d : Race) : Prop :=
  ∃ answer order, d.cancel = .done answer ∧ order.Perm ((.cancel, answer) :: handled events) ∧
    Serial Op.apply ⟨status, false⟩ order d.row

/-- When the cancel commits, the order can still be cancelled, or an event other
than `ShipmentCreated` takes part, or a handler is still to end. -/
def CommitsInTime (d : Race) (a : RaceAct) : Prop :=
  a = .commitCancel → notCancellable d.row.status = false ∨
    (∃ h ∈ d.handlers, h.1 ≠ .shipmentCreated) ∨ ∃ h ∈ d.handlers, h.2 ≠ .done

instance (d : Race) (a : RaceAct) : Decidable (CommitsInTime d a) :=
  inferInstanceAs (Decidable (_ → _))

/-- The status after the handlers of the events, run one after another. -/
def after (status : OrderStatus) (events : List StatusEvent) : OrderStatus :=
  events.foldl (fun _ e => e.target) status

theorem after_snoc (status : OrderStatus) (events : List StatusEvent) (e : StatusEvent) :
    after status (events ++ [e]) = e.target := by
  simp [after, List.foldl_append]

theorem after_append (status : OrderStatus) (es fs : List StatusEvent) :
    after status (es ++ fs) = after (after status es) fs := List.foldl_append

/-- At least one handler hides the status it starts from. -/
theorem after_of_ne_nil (s t : OrderStatus) {events : List StatusEvent} (h : events ≠ []) :
    after s events = after t events := by
  obtain ⟨e, es, rfl⟩ := List.exists_cons_of_ne_nil h
  rfl

theorem serial_handled (r : Row) (events : List StatusEvent) :
    Serial Op.apply r (handled events) ⟨after r.status events, r.published⟩ := by
  induction events generalizing r with
  | nil => rfl
  | cons e es ih =>
    by_cases heq : r.status = e.target
    · refine ⟨r, if_pos heq, ?_⟩
      have hrest := ih r
      rwa [heq] at hrest
    · exact ⟨{ r with status := e.target }, if_neg heq, ih { r with status := e.target }⟩

theorem serial_handled_cancel {s : OrderStatus} {es : List StatusEvent} (fs : List StatusEvent)
    (h : notCancellable (after s es) = false) :
    Serial Op.apply ⟨s, false⟩ (handled es ++ (.cancel, .success) :: handled fs)
      ⟨after .cancelled fs, true⟩ :=
  (serial_handled ⟨s, false⟩ es).append
    ⟨⟨.cancelled, true⟩, by simp [Op.apply, h], serial_handled ⟨.cancelled, true⟩ fs⟩

theorem serial_handled_conflict {s : OrderStatus} {es fs : List StatusEvent}
    (h : notCancellable (after s es) = true) :
    Serial Op.apply ⟨s, false⟩ (handled es ++ (.cancel, .conflict) :: handled fs)
      ⟨after s (es ++ fs), false⟩ := by
  rw [after_append]
  exact (serial_handled ⟨s, false⟩ es).append
    ⟨⟨after s es, false⟩, by simp [Op.apply, h], serial_handled ⟨after s es, false⟩ fs⟩

/-- The events whose handlers have ended. -/
def ended (handlers : List (StatusEvent × HandlerPhase)) : List StatusEvent :=
  handlers.filterMap fun h => if h.2 = .done then some h.1 else none

theorem ended_set_loaded {handlers : List (StatusEvent × HandlerPhase)} {i : Nat} {e : StatusEvent}
    (h : handlers[i]? = some (e, .ready)) :
    ended (handlers.set i (e, .loaded)) = ended handlers := by
  unfold ended
  induction handlers generalizing i with
  | nil => rfl
  | cons x xs ih =>
    cases i with
    | zero =>
      cases Option.some.inj h
      rfl
    | succ i =>
      have htail := ih (i := i) (by simpa using h)
      simp only [List.set_cons_succ, List.filterMap_cons]
      rw [htail]

theorem ended_set_done {handlers : List (StatusEvent × HandlerPhase)} {i : Nat} {e : StatusEvent}
    {ph : HandlerPhase} (h : handlers[i]? = some (e, ph)) (hph : ph ≠ .done) :
    (ended (handlers.set i (e, .done))).Perm (ended handlers ++ [e]) := by
  refine List.Perm.trans ?_ (List.perm_append_singleton _ _).symm
  unfold ended
  induction handlers generalizing i with
  | nil => simp at h
  | cons x xs ih =>
    cases i with
    | zero =>
      cases Option.some.inj h
      simp [hph]
    | succ i =>
      have htail := ih (i := i) (by simpa using h)
      obtain ⟨f, phf⟩ := x
      by_cases hf : phf = .done
      · subst hf
        exact (htail.cons f).trans (.swap _ _ _)
      · simpa [hf] using htail

/-- Everything one step of the race can be. -/
inductive Raced (d : Race) : RaceAct → Race → Prop
  | refused (hc : d.cancel = .ready) (hn : notCancellable d.row.status = true) :
      Raced d .readCancel { d with cancel := .done .conflict }
  | loaded (hc : d.cancel = .ready) (hn : notCancellable d.row.status = false) :
      Raced d .readCancel { d with cancel := .loaded }
  | cancelled (hc : d.cancel = .loaded) :
      Raced d .commitCancel { d with row := ⟨.cancelled, true⟩, cancel := .done .success }
  | waits {a handlers} (hended : ended handlers = ended d.handlers)
      (hsome : ∃ h ∈ handlers, h.2 ≠ .done) : Raced d a { d with handlers }
  | ends {a handlers} (e : StatusEvent)
      (hended : (ended handlers).Perm (ended d.handlers ++ [e])) :
      Raced d a ⟨⟨e.target, d.row.published⟩, d.cancel, handlers⟩

theorem raceStep_raced {d d' : Race} {a : RaceAct} (h : raceStep d a = some d') : Raced d a d' := by
  cases a with
  | readCancel =>
    simp only [raceStep] at h
    split_ifs at h with hc hn
    · cases h
      exact .refused hc hn
    · cases h
      exact .loaded hc (by simpa using hn)
  | commitCancel =>
    simp only [raceStep] at h
    split_ifs at h with hc
    cases h
    exact .cancelled hc
  | read i =>
    simp only [raceStep] at h
    split at h
    · rename_i e hi
      split_ifs at h with heq
      · cases h
        have hrow : d.row = ⟨e.target, d.row.published⟩ := by rw [← heq]
        have hends := Raced.ends (a := .read i) e (ended_set_done hi (by simp))
        rwa [← hrow] at hends
      · cases h
        refine .waits (ended_set_loaded hi) ⟨(e, .loaded), ?_, by simp⟩
        exact List.mem_set (List.getElem?_eq_some_iff.mp hi).1 _
    · cases h
  | commit i =>
    simp only [raceStep] at h
    split at h
    · rename_i e hi
      cases h
      exact .ends e (ended_set_done hi (by simp))
    · cases h

/-- Nothing happens once everything has ended. -/
theorem raceStep_finished {d : Race} (h : d.Finished) (a : RaceAct) : raceStep d a = none := by
  obtain ⟨⟨answer, hc⟩, hdone⟩ := h
  have hhandler : ∀ (i : Nat) (e : StatusEvent) (ph : HandlerPhase),
      d.handlers[i]? = some (e, ph) → ph = .done := by
    intro i e ph hi
    exact hdone (e, ph) (List.mem_of_getElem? hi)
  cases a with
  | readCancel => simp [raceStep, hc]
  | commitCancel => simp [raceStep, hc]
  | read i =>
    simp only [raceStep]
    split
    · rename_i e hi
      cases hhandler i e _ hi
    · rfl
  | commit i =>
    simp only [raceStep]
    split
    · rename_i e hi
      cases hhandler i e _ hi
    · rfl

theorem raceStep_events {d d' : Race} {a : RaceAct} (h : raceStep d a = some d') :
    d'.handlers.map Prod.fst = d.handlers.map Prod.fst := by
  have hset (i : Nat) (e : StatusEvent) (ph ph' : HandlerPhase)
      (hi : d.handlers[i]? = some (e, ph)) :
      (d.handlers.set i (e, ph')).map Prod.fst = d.handlers.map Prod.fst :=
    Pool.map_set_of_eq Prod.fst hi rfl
  cases a with
  | readCancel =>
    simp only [raceStep] at h
    split_ifs at h <;> cases h <;> rfl
  | commitCancel =>
    simp only [raceStep] at h
    split_ifs at h
    cases h
    rfl
  | read i =>
    simp only [raceStep] at h
    split at h
    · rename_i e hi
      split_ifs at h <;> cases h <;> exact hset i e _ _ hi
    · cases h
  | commit i =>
    simp only [raceStep] at h
    split at h
    · rename_i e hi
      cases h
      exact hset i e _ _ hi
    · cases h

/-- The handlers that have ended, in the order of their effects: before the
cancel's read, between its read and its commit, and after its commit. -/
def Race.History (s : OrderStatus) (d : Race) : Prop :=
  match d.cancel with
  | .ready => ∃ es, es.Perm (ended d.handlers) ∧ d.row = ⟨after s es, false⟩
  | .loaded => ∃ es ms, (es ++ ms).Perm (ended d.handlers) ∧ notCancellable (after s es) = false ∧
      d.row = ⟨after s (es ++ ms), false⟩
  | .done .conflict => ∃ es ns, (es ++ ns).Perm (ended d.handlers) ∧
      notCancellable (after s es) = true ∧
      d.row = ⟨after s (es ++ ns), false⟩
  | .done .success => ∃ es ms ns, (es ++ ms ++ ns).Perm (ended d.handlers) ∧
      notCancellable (after s es) = false ∧ d.row = ⟨after .cancelled ns, true⟩
  | .done .handled => False

theorem history_start (s : OrderStatus) (events : List StatusEvent) :
    (Race.start s events).History s := by
  refine ⟨[], ?_, rfl⟩
  have hnil : ended (Race.start s events).handlers = [] := by
    simp [ended, Race.start, List.filterMap_map]
  rw [hnil]

theorem raceStep_history {s : OrderStatus} {d d' : Race} {a : RaceAct} (hd : d.History s)
    (h : raceStep d a = some d') : d'.History s := by
  obtain ⟨row, cancel, handlers⟩ := d
  cases raceStep_raced h with
  | refused hc hn =>
    dsimp only at hc
    subst hc
    obtain ⟨es, hperm, hrow⟩ := hd
    dsimp only at hrow
    subst hrow
    exact ⟨es, [], by simpa using hperm, hn, by simp⟩
  | loaded hc hn =>
    dsimp only at hc
    subst hc
    obtain ⟨es, hperm, hrow⟩ := hd
    dsimp only at hrow
    subst hrow
    exact ⟨es, [], by simpa using hperm, hn, by simp⟩
  | cancelled hc =>
    dsimp only at hc
    subst hc
    obtain ⟨es, ms, hperm, hn, -⟩ := hd
    exact ⟨es, ms, [], by simpa using hperm, hn, rfl⟩
  | waits hended _ =>
    unfold Race.History at hd ⊢
    rw [hended]
    exact hd
  | ends e hended =>
    cases cancel with
    | ready =>
      obtain ⟨es, hperm, hrow⟩ := hd
      dsimp only at hrow
      subst hrow
      refine ⟨es ++ [e], (hperm.append_right [e]).trans hended.symm, ?_⟩
      rw [after_snoc]
    | loaded =>
      obtain ⟨es, ms, hperm, hn, hrow⟩ := hd
      dsimp only at hrow
      subst hrow
      refine ⟨es, ms ++ [e], ?_, hn, ?_⟩
      · rw [← List.append_assoc]
        exact (hperm.append_right [e]).trans hended.symm
      · rw [← List.append_assoc, after_snoc]
    | done answer =>
      cases answer with
      | conflict =>
        obtain ⟨es, ns, hperm, hn, hrow⟩ := hd
        dsimp only at hrow
        subst hrow
        refine ⟨es, ns ++ [e], ?_, hn, ?_⟩
        · rw [← List.append_assoc]
          exact (hperm.append_right [e]).trans hended.symm
        · rw [← List.append_assoc, after_snoc]
      | success =>
        obtain ⟨es, ms, ns, hperm, hn, hrow⟩ := hd
        dsimp only at hrow
        subst hrow
        refine ⟨es, ms, ns ++ [e], ?_, hn, ?_⟩
        · rw [← List.append_assoc]
          exact (hperm.append_right [e]).trans hended.symm
        · rw [after_snoc]
      | handled => exact hd.elim

/-- The history of a successful cancel that committed in time. -/
def Race.Timely (s : OrderStatus) (d : Race) : Prop :=
  d.cancel = .done .success → ∃ es ms ns, (es ++ ms ++ ns).Perm (ended d.handlers) ∧
    notCancellable (after s es) = false ∧ d.row = ⟨after .cancelled ns, true⟩ ∧
    (notCancellable (after s (es ++ ms)) = false ∨ (∃ h ∈ d.handlers, h.1 ≠ .shipmentCreated) ∨
      ns ≠ [] ∨ ∃ h ∈ d.handlers, h.2 ≠ .done)

theorem raceStep_timely {s : OrderStatus} {d d' : Race} {a : RaceAct} (hd : d.History s)
    (htimely : d.Timely s) (ha : CommitsInTime d a) (h : raceStep d a = some d') : d'.Timely s := by
  obtain ⟨row, cancel, handlers⟩ := d
  intro hsuccess
  cases raceStep_raced h with
  | refused => cases hsuccess
  | loaded => cases hsuccess
  | cancelled hc =>
    dsimp only at hc
    subst hc
    obtain ⟨es, ms, hperm, hn, hrow⟩ := hd
    dsimp only at hrow
    subst hrow
    refine ⟨es, ms, [], by simpa using hperm, hn, rfl, ?_⟩
    rcases ha rfl with hstill | hother | hopen
    · exact .inl hstill
    · exact .inr (.inl hother)
    · exact .inr (.inr (.inr hopen))
  | waits hended hsome =>
    obtain ⟨es, ms, ns, hperm, hn, hrow, -⟩ := htimely hsuccess
    exact ⟨es, ms, ns, hended ▸ hperm, hn, hrow, .inr (.inr (.inr hsome))⟩
  | ends e hended =>
    obtain ⟨es, ms, ns, hperm, hn, hrow, -⟩ := htimely hsuccess
    dsimp only at hrow
    subst hrow
    refine ⟨es, ms, ns ++ [e], ?_, hn, ?_, .inr (.inr (.inl (by simp)))⟩
    · rw [← List.append_assoc]
      exact (hperm.append_right [e]).trans hended.symm
    · rw [after_snoc]

theorem perm_handled (es fs : List StatusEvent) {events : List StatusEvent}
    (h : (es ++ fs).Perm events) (answer : Answer) :
    (handled es ++ (.cancel, answer) :: handled fs).Perm ((.cancel, answer) :: handled events) := by
  have hmap : handled es ++ handled fs = handled (es ++ fs) := List.map_append.symm
  refine List.perm_middle.trans (List.Perm.cons _ ?_)
  rw [hmap]
  exact h.map _

/-- With one `StockReserved`, the cancel can run last of all. -/
theorem serialisable_of_stockReserved {s : OrderStatus} {events : List StatusEvent} {d : Race}
    (hc : d.cancel = .done .success) (hrow : d.row = ⟨.cancelled, true⟩)
    (hmem : .stockReserved ∈ events) : d.Serialisable s events := by
  have hperm : (events.erase .stockReserved ++ [StatusEvent.stockReserved]).Perm events :=
    (List.perm_append_singleton _ _).trans (List.perm_cons_erase hmem).symm
  refine ⟨.success, _, hc, perm_handled _ [] (by simpa using hperm) .success, ?_⟩
  rw [hrow]
  apply serial_handled_cancel []
  rw [after_snoc]
  rfl

theorem Race.Timely.serialisable {s : OrderStatus} {events : List StatusEvent} {d : Race}
    (h : d.Timely s) (hc : d.cancel = .done .success) (hdone : ∀ x ∈ d.handlers, x.2 = .done)
    (hended : ended d.handlers = events) (hevents : d.handlers.map Prod.fst = events) :
    d.Serialisable s events := by
  obtain ⟨es, ms, ns, hperm, hn, hrow, hintime⟩ := h hc
  rw [hended] at hperm
  by_cases hns : ns = []
  · subst hns
    rw [List.append_nil] at hperm
    rcases hintime with hstill | hother | hlate | hopen
    · refine ⟨.success, _, hc, perm_handled _ [] (by simpa using hperm) .success, ?_⟩
      rw [hrow]
      exact serial_handled_cancel [] hstill
    · obtain ⟨x, hx, hne⟩ := hother
      have hmem : x.1 ∈ es ++ ms := by
        rw [hperm.mem_iff, ← hevents]
        exact List.mem_map_of_mem hx
      cases hx1 : x.1 with
      | shipmentCreated => exact absurd hx1 hne
      | stockReserved =>
        exact serialisable_of_stockReserved hc hrow (hx1 ▸ hperm.mem_iff.mp hmem)
      | stockUnavailable =>
        rw [hx1] at hmem
        rcases List.eq_nil_or_concat es with rfl | ⟨es', y, rfl⟩
        · have hlast : (ms.erase .stockUnavailable ++ [StatusEvent.stockUnavailable]).Perm events :=
            ((List.perm_append_singleton _ _).trans (List.perm_cons_erase hmem).symm).trans hperm
          refine ⟨.success, _, hc, perm_handled [] _ hlast .success, ?_⟩
          rw [hrow]
          have hserial :=
            serial_handled_cancel (ms.erase .stockUnavailable ++ [.stockUnavailable]) hn
          rwa [after_snoc] at hserial
        · rw [List.concat_eq_append, after_snoc] at hn
          have hy : y = .stockReserved := by
            cases y with
            | stockReserved => rfl
            | _ => cases hn
          subst hy
          have hin : StatusEvent.stockReserved ∈ events := hperm.mem_iff.mp (by simp)
          exact serialisable_of_stockReserved hc hrow hin
    · exact absurd rfl hlate
    · obtain ⟨x, hx, hopen⟩ := hopen
      exact absurd (hdone x hx) hopen
  · rw [List.append_assoc] at hperm
    refine ⟨.success, _, hc, perm_handled _ _ hperm .success, ?_⟩
    have hserial := serial_handled_cancel (ms ++ ns) hn
    rwa [after_append, after_of_ne_nil _ .cancelled hns, ← hrow] at hserial

theorem serial_shipments {r t : Row} {order : List (Op × Answer)}
    (hall : ∀ x ∈ order, x.1 = .event .shipmentCreated) (h : Serial Op.apply r order t) :
    (order = [] ∧ t = r) ∨ t.status = .shipped := by
  induction order generalizing r with
  | nil => exact .inl ⟨rfl, h.symm⟩
  | cons x xs ih =>
    obtain ⟨op, answer⟩ := x
    have hop : op = .event .shipmentCreated := hall (op, answer) List.mem_cons_self
    subst hop
    obtain ⟨u, hu, hrest⟩ := h
    have hshipped : u.status = .shipped := by
      simp only [Op.apply] at hu
      split_ifs at hu with heq
      · cases Option.some.inj hu
        exact heq
      · cases Option.some.inj hu
        rfl
    rcases ih (fun y hy => hall y (List.mem_cons_of_mem _ hy)) hrest with ⟨-, rfl⟩ | hlast
    · exact .inr hshipped
    · exact .inr hlast

/-- A success that overwrites shipments, with nothing after it, has no serial order. -/
theorem not_serialisable_of_shipments {s : OrderStatus} {events : List StatusEvent} {d : Race}
    (hc : d.cancel = .done .success) (hrow : d.row = ⟨.cancelled, true⟩) (hne : events ≠ [])
    (hall : ∀ e ∈ events, e = .shipmentCreated) : ¬ d.Serialisable s events := by
  rintro ⟨answer, order, hanswer, hperm, hserial⟩
  rw [hc] at hanswer
  cases hanswer
  rw [hrow] at hserial
  have hmem : (Op.cancel, Answer.success) ∈ order := hperm.mem_iff.mpr List.mem_cons_self
  obtain ⟨pre, post, rfl⟩ := List.append_of_mem hmem
  have hrest : (pre ++ post).Perm (handled events) :=
    (List.perm_middle.symm.trans hperm).cons_inv
  have hships : ∀ x ∈ pre ++ post, x.1 = .event .shipmentCreated := by
    intro x hx
    obtain ⟨e, he, rfl⟩ := List.mem_map.mp (hrest.mem_iff.mp hx)
    rw [hall e he]
  obtain ⟨u, hpre, v, hv, hpost⟩ := hserial.split
  rcases serial_shipments (fun x hx => hships x (List.mem_append_right _ hx)) hpost with
    ⟨rfl, -⟩ | hlast
  · rcases serial_shipments (fun x hx => hships x (List.mem_append_left _ hx)) hpre with
      ⟨rfl, -⟩ | hshipped
    · have hlen := hrest.length_eq
      simp only [List.append_nil, List.length_nil, handled, List.length_map] at hlen
      exact hne (List.length_eq_zero_iff.mp hlen.symm)
    · simp [Op.apply, notCancellable, hshipped] at hv
  · cases hlast

theorem ended_of_finished {handlers : List (StatusEvent × HandlerPhase)}
    (h : ∀ x ∈ handlers, x.2 = .done) : ended handlers = handlers.map Prod.fst := by
  unfold ended
  induction handlers with
  | nil => rfl
  | cons x xs ih =>
    have hx := h x List.mem_cons_self
    have htail := ih fun y hy => h y (List.mem_cons_of_mem x hy)
    simp only [List.filterMap_cons, hx, if_true, List.map_cons, htail]

theorem exec_events {s : OrderStatus} {events : List StatusEvent} {acts : List RaceAct} {d : Race}
    (h : exec raceStep (Race.start s events) acts = some d) : d.handlers.map Prod.fst = events := by
  refine exec_invariant (fun e => e.handlers.map Prod.fst = events) ?_ ?_ h
  · intro e a e' he hs
    exact (raceStep_events hs).trans he
  · simp [Race.start, Function.comp_def]

theorem exec_history {s : OrderStatus} {events : List StatusEvent} {acts : List RaceAct} {d : Race}
    (h : exec raceStep (Race.start s events) acts = some d) : d.History s :=
  exec_invariant (Race.History s) (fun _ _ _ hd hs => raceStep_history hd hs)
    (history_start s events) h

/-- A commit that comes too late is the last step, and no serial order explains it. -/
theorem not_serialisable_of_late {s : OrderStatus} {events : List StatusEvent}
    {pre post : List RaceAct}
    {a : RaceAct} {u d : Race} (hpre : exec raceStep (Race.start s events) pre = some u)
    (hlate : ¬ CommitsInTime u a) (hrest : exec raceStep u (a :: post) = some d) :
    ¬ d.Serialisable s events := by
  obtain ⟨v, hv, hpost⟩ := exec_cons_eq_some.mp hrest
  obtain ⟨rfl, hbad⟩ := Classical.not_imp.mp hlate
  obtain ⟨hstatus, hships, hclosed⟩ : notCancellable u.row.status = true ∧
      (∀ h ∈ u.handlers, h.1 = .shipmentCreated) ∧ ∀ h ∈ u.handlers, h.2 = .done := by
    simpa using hbad
  have hphase : u.cancel = .loaded := by
    simp only [raceStep] at hv
    split_ifs at hv with hphase
    exact hphase
  have hvd : v = { u with row := ⟨.cancelled, true⟩, cancel := .done .success } := by
    simp only [raceStep, if_pos hphase] at hv
    exact (Option.some.inj hv).symm
  have hlast : post = [] := by
    cases post with
    | nil => rfl
    | cons b bs =>
      obtain ⟨w, hw, -⟩ := exec_cons_eq_some.mp hpost
      have hfin : v.Finished := by
        rw [hvd]
        exact ⟨⟨.success, rfl⟩, hclosed⟩
      rw [raceStep_finished hfin] at hw
      cases hw
  subst hlast
  cases Option.some.inj hpost
  have hhist := exec_history hpre
  unfold Race.History at hhist
  rw [hphase] at hhist
  obtain ⟨es, ms, hperm, hn, hrow⟩ := hhist
  have hne : events ≠ [] := by
    intro hnil
    have huevents := exec_events hpre
    rw [hnil, List.map_eq_nil_iff] at huevents
    rw [huevents] at hperm
    obtain ⟨rfl, rfl⟩ := List.append_eq_nil_iff.mp hperm.eq_nil
    rw [hrow, List.append_nil, hn] at hstatus
    cases hstatus
  refine not_serialisable_of_shipments (by rw [hvd]) (by rw [hvd]) hne fun e he => ?_
  rw [← exec_events hpre] at he
  obtain ⟨h, hh, rfl⟩ := List.mem_map.mp he
  exact hships h hh

theorem serialisable_of_meets {s : OrderStatus} {events : List StatusEvent} {acts : List RaceAct}
    {d : Race} (hrun : exec raceStep (Race.start s events) acts = some d) (hdone : d.Finished)
    (hmeets : Meets raceStep CommitsInTime (Race.start s events) acts) :
    d.Serialisable s events := by
  have hevents := exec_events hrun
  obtain ⟨⟨answer, hc⟩, hhandlers⟩ := hdone
  have hended : ended d.handlers = events := (ended_of_finished hhandlers).trans hevents
  obtain ⟨hhist, htimely⟩ : d.History s ∧ d.Timely s := by
    refine exec_invariant_of_meets (fun e => e.History s ∧ e.Timely s) ?_ ?_ hmeets hrun
    · intro e a e' ⟨hh, ht⟩ hg hs
      exact ⟨raceStep_history hh hs, raceStep_timely hh ht hg hs⟩
    · exact ⟨history_start s events, fun h => by cases h⟩
  cases answer with
  | success => exact htimely.serialisable hc hhandlers hended hevents
  | conflict =>
    unfold Race.History at hhist
    rw [hc] at hhist
    obtain ⟨es, ns, hperm, hn, hrow⟩ := hhist
    rw [hended] at hperm
    refine ⟨.conflict, _, hc, perm_handled _ _ hperm .conflict, ?_⟩
    rw [hrow]
    exact serial_handled_conflict hn
  | handled =>
    unfold Race.History at hhist
    rw [hc] at hhist
    exact hhist.elim

/-- A complete race is serialisable exactly when the cancel, if it commits, commits in time. -/
theorem cancel_race_serialisable_iff (s : OrderStatus) (events : List StatusEvent)
    (acts : List RaceAct) (d : Race) (hrun : exec raceStep (Race.start s events) acts = some d)
    (hdone : d.Finished) :
    d.Serialisable s events ↔ Meets raceStep CommitsInTime (Race.start s events) acts := by
  constructor
  · intro hserial
    by_contra hmeets
    obtain ⟨pre, a, post, u, rfl, hpre, hlate⟩ := exists_break_of_not_meets hrun hmeets
    obtain ⟨u', hu', hrest⟩ := exec_append_eq_some.mp hrun
    cases Option.some.inj (hpre.symm.trans hu')
    exact not_serialisable_of_late hpre hlate hrest hserial
  · exact serialisable_of_meets hrun hdone

theorem cancel_race_serialisable_iff_before_shipment :
    (⟨⟨.shipped, true⟩, .done .success, [(.shipmentCreated, .done)]⟩ : Race).Serialisable
        .pending [.shipmentCreated] ↔
      Meets raceStep CommitsInTime (Race.start .pending [.shipmentCreated])
        [.readCancel, .commitCancel, .read 0, .commit 0] :=
  cancel_race_serialisable_iff .pending [.shipmentCreated]
    [.readCancel, .commitCancel, .read 0, .commit 0] _ rfl ⟨⟨.success, rfl⟩, by simp⟩

/-- Shipped between the read and the commit of the cancel, and cancelled all the same. -/
theorem cancel_race_overwrites_shipment :
    ∃ d, exec raceStep (Race.start .pending [.shipmentCreated])
        [.readCancel, .read 0, .commit 0, .commitCancel] = some d ∧ d.Finished ∧
      ¬ d.Serialisable .pending [.shipmentCreated] := by
  refine ⟨⟨⟨.cancelled, true⟩, .done .success, [(.shipmentCreated, .done)]⟩, rfl,
    ⟨⟨.success, rfl⟩, by simp⟩, ?_⟩
  exact not_serialisable_of_shipments rfl rfl (by simp) (by simp)

end OrderMesh.Orders
