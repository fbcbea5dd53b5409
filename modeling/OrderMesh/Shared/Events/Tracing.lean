import Mathlib.Logic.Relation
import OrderMesh.Library.Pool
import OrderMesh.Shared.Events.Durability
import OrderMesh.Shared.Headers

namespace OrderMesh.Tracing

open Transition

/-- The value of `request_id_ctx` in one context; `none` where it is not set. -/
abbrev Context := Option String

/-- `request_id_ctx.get()`. -/
def Context.get (c : Context) : String := c.getD "-"

/-- A message in some queue, with the number of the event it is a copy of;
`none` when no service published that event. -/
structure Copy where
  event : Option Nat
  message : Message

/-- A run of `dispatch`, which `uuid4` would give a fresh id, or of `_handle`. -/
inductive Work
  | request (lines : List (String × String)) (fresh : Uuid)
  | delivery (c : Consumer) (copy : Copy)

inductive Ending
  | returned
  | raised

/-- How far the run has come: it waits for `call_next` or the handler, is in the `except` branch, or
is about to run the `finally` block. -/
inductive Phase
  | entered
  | running
  | acking
  | failing
  | republished
  | leaving (ending : Ending)
  | done (ending : Ending)

/-- A run with the value of the variable when it began and now, what its token remembers if it has
set the variable, and the context that `call_next` runs the application in. -/
structure Task where
  work : Work
  before : Context
  ctx : Context
  token : Option Context
  application : Option Context
  phase : Phase

/-- What a task does on its own. It can be cancelled at an await, which `except Exception` does not
catch. -/
inductive TaskAct
  | enter
  | finish (ok : Bool)
  | operation (reply : Reply)
  | cancel
  | leave

def Task.set (t : Task) (requestId : String) : Task :=
  { t with ctx := some requestId, token := some t.ctx }

def Task.reset (t : Task) : Task :=
  match t.token with
  | none => t
  | some old => { t with ctx := old, token := none }

/-- `dispatch` up to `call_next`. -/
def Task.dispatch (t : Task) (lines : List (String × String)) (fresh : Uuid) : Task :=
  let inside := t.set (requestId lines fresh)
  { inside with application := some inside.ctx, phase := .running }

/-- `if event.request_id: token = request_id_ctx.set(event.request_id)`. -/
def Task.adopt (t : Task) (e : Event) : Task :=
  match e.requestId with
  | none => t
  | some id => if id = "" then t else t.set id

/-- `_handle` up to its first await; `int` raises outside of the `try`. -/
def Task.handle (t : Task) (c : Consumer) (m : Message) : Task :=
  match m.retry, m.body with
  | none, _ => { t with phase := .done .raised }
  | some _, .malformed _ => { t with phase := .failing }
  | some _, .event e =>
      { t.adopt e with phase := if e.eventType ∈ c.eventTypes then .running else .acking }

def Task.enter (t : Task) : Task :=
  match t.work with
  | .request lines fresh => t.dispatch lines fresh
  | .delivery c copy => t.handle c copy.message

def ending : Reply → Ending
  | .ok => .returned
  | _ => .raised

/-- The phase after `call_next` or the handler. -/
def Work.finished : Work → Bool → Phase
  | .request .., ok => .leaving (if ok then .returned else .raised)
  | .delivery .., ok => if ok then .acking else .failing

/-- The retry count of a failed delivery that is published again. -/
def Work.again : Work → Option Int
  | .request .. => none
  | .delivery _ copy => copy.message.retry.filter fun retry => ¬ retry + 1 ≥ maxRetries

def Task.step (t : Task) : TaskAct → Option Task
  | .enter =>
      match t.phase with
      | .entered => some t.enter
      | _ => none
  | .finish ok =>
      match t.phase with
      | .running => some { t with phase := t.work.finished ok }
      | _ => none
  | .operation reply =>
      match t.phase with
      | .acking => some { t with phase := if reply = .ok then .leaving .returned else .failing }
      | .failing =>
          match t.work.again with
          | none => some { t with phase := .leaving (ending reply) }
          | some _ =>
              some { t with phase := if reply = .ok then .republished else .leaving .raised }
      | .republished => some { t with phase := .leaving (ending reply) }
      | _ => none
  | .cancel =>
      match t.phase with
      | .running | .acking | .failing | .republished => some { t with phase := .leaving .raised }
      | _ => none
  | .leave =>
      match t.phase with
      | .leaving ending => some { t.reset with phase := .done ending }
      | _ => none

/-- The message `_republish` puts on the exchange, when the operation took effect. -/
def Task.sent (t : Task) : TaskAct → List Copy
  | .operation reply =>
      match t.phase, t.work, t.work.again with
      | .failing, .delivery _ copy, some retry =>
          if reply = .refused then []
          else [{ copy with message := copy.message.republished (retry + 1) }]
      | _, _, _ => []
  | _ => []

/-- The context the code of the service runs in, while it runs. -/
def Task.inside (t : Task) : Option Context :=
  match t.work, t.phase with
  | .request .., _ => t.application
  | .delivery .., .running => some t.ctx
  | .delivery .., _ => none

/-- An event with the task that published it. -/
structure Publication where
  event : Event
  task : Nat

/-- Every event published, in order, every message ever queued, which may be delivered again and
again, and the tasks. -/
structure State where
  events : List Publication
  messages : List Copy
  tasks : List Task

/-- In `foreign` something outside the services queues a message. -/
inductive Act
  | request (lines : List (String × String)) (fresh : Uuid) (before : Context)
  | deliver (k : Nat) (c : Consumer) (before : Context)
  | task (i : Nat) (a : TaskAct)
  | publish (i : Nat) (payload : Payload) (timestamp : String)
  | foreign (m : Message)

def State.add (s : State) (work : Work) (before : Context) : State :=
  { s with tasks := s.tasks ++ [⟨work, before, before, none, none, .entered⟩] }

/-- `publish(Event.create(..))` in the context the code runs in. -/
def State.publish (s : State) (i : Nat) (inside : Context) (payload : Payload)
    (timestamp : String) : State :=
  let e := Event.create payload timestamp (some inside.get)
  { s with
    events := s.events ++ [⟨e, i⟩]
    messages := s.messages ++ [⟨some s.events.length, OrderMesh.publish e⟩] }

def step (s : State) : Act → Option State
  | .request lines fresh before => some (s.add (.request lines fresh) before)
  | .deliver k c before => (s.messages[k]?).map fun copy => s.add (.delivery c copy) before
  | .task i a =>
      match s.tasks[i]? with
      | none => none
      | some t =>
          (t.step a).map fun t' =>
            { s with tasks := s.tasks.set i t', messages := s.messages ++ t.sent a }
  | .publish i payload timestamp =>
      match s.tasks[i]? with
      | none => none
      | some t => t.inside.map fun inside => s.publish i inside payload timestamp
  | .foreign m => some { s with messages := s.messages ++ [⟨none, m⟩] }

def State.start : State := ⟨[], [], []⟩

/-- The task published the event. -/
def State.Published (s : State) (i n : Nat) : Prop := ∃ e, s.events[n]? = some ⟨e, i⟩

/-- A handler of a copy of the first event published the second. -/
def State.Triggers (s : State) (m n : Nat) : Prop :=
  ∃ i t c copy, s.tasks[i]? = some t ∧ t.work = .delivery c copy ∧ copy.event = some m ∧
    s.Published i n

/-- The event was published by the task, or by a handler of an event it caused. -/
def State.Causes (s : State) (i n : Nat) : Prop :=
  ∃ m, s.Published i m ∧ Relation.ReflTransGen s.Triggers m n

/-- The request id the task runs under; `none` when its message brings none. -/
def Work.requestId : Work → Option String
  | .request lines fresh => some (OrderMesh.requestId lines fresh)
  | .delivery _ copy =>
      match copy.message.body with
      | .malformed _ => none
      | .event e => e.requestId.filter fun id => id ≠ ""

/-- The run is past its handler and has not ended. -/
def Phase.Closing : Phase → Prop
  | .acking | .failing | .republished | .leaving _ => True
  | .entered | .running | .done _ => False

/-- What holds of a task at every await. -/
structure Task.Kept (t : Task) : Prop where
  restores : t.token = none ∧ t.ctx = t.before ∨ t.token = some t.before
  outside : t.phase = .entered ∨ (∃ e, t.phase = .done e) → t.token = none
  traced : ∀ inside r, t.inside = some inside → t.work.requestId = some r → inside = some r

variable {t t' : Task} {a : TaskAct}

theorem Work.finished_closing (w : Work) (ok : Bool) : (w.finished ok).Closing := by
  cases w <;> cases ok <;> trivial

theorem Task.step_cases (hs : t.step a = some t') :
    (t.phase = .entered ∧ t' = t.enter) ∨ (∃ p : Phase, p.Closing ∧ t' = { t with phase := p }) ∨
      ∃ ending, t' = { t.reset with phase := .done ending } := by
  have moved (p : Phase) (hp : p.Closing) (h : some { t with phase := p } = some t') :
      ∃ p : Phase, p.Closing ∧ t' = { t with phase := p } := ⟨p, hp, (Option.some.inj h).symm⟩
  cases a with
  | enter =>
    simp only [Task.step] at hs
    split at hs
    · next hphase => exact .inl ⟨hphase, (Option.some.inj hs).symm⟩
    · cases hs
  | finish ok =>
    simp only [Task.step] at hs
    split at hs
    · exact .inr (.inl (moved _ (t.work.finished_closing ok) hs))
    · cases hs
  | operation reply =>
    simp only [Task.step] at hs
    split at hs
    · refine .inr (.inl (moved _ ?_ hs))
      split_ifs <;> trivial
    · split at hs
      · exact .inr (.inl (moved (.leaving _) trivial hs))
      · refine .inr (.inl (moved _ ?_ hs))
        split_ifs <;> trivial
    · exact .inr (.inl (moved (.leaving _) trivial hs))
    · cases hs
  | cancel =>
    simp only [Task.step] at hs
    split at hs
    all_goals first
      | exact .inr (.inl (moved (.leaving _) trivial hs))
      | cases hs
  | leave =>
    simp only [Task.step] at hs
    split at hs
    · exact .inr (.inr ⟨_, (Option.some.inj hs).symm⟩)
    · cases hs

/-- A step leaves what the task works on, and its record of the old value, as they are. -/
def Task.Frame (t t' : Task) : Prop := t'.work = t.work ∧ t'.before = t.before

theorem Task.frame_adopt (t : Task) (e : Event) : t.Frame (t.adopt e) := by
  unfold Task.adopt
  split
  · exact ⟨rfl, rfl⟩
  · split_ifs <;> exact ⟨rfl, rfl⟩

/-- The event's request id is the one set, unless it brings none. -/
theorem Task.adopt_cases (t : Task) (e : Event) :
    (t.adopt e = t ∧ e.requestId.filter (fun id => id ≠ "") = none) ∨
      ∃ id, t.adopt e = t.set id ∧ e.requestId.filter (fun id => id ≠ "") = some id := by
  unfold Task.adopt
  cases e.requestId with
  | none => exact .inl ⟨rfl, rfl⟩
  | some id =>
    by_cases hid : id = ""
    · exact .inl ⟨if_pos hid, by simp [hid]⟩
    · exact .inr ⟨id, if_neg hid, by simp [hid]⟩

theorem Task.frame_handle (t : Task) (c : Consumer) (m : Message) : t.Frame (t.handle c m) := by
  unfold Task.handle
  split
  · exact ⟨rfl, rfl⟩
  · exact ⟨rfl, rfl⟩
  · exact t.frame_adopt _

theorem Task.frame_enter (t : Task) : t.Frame t.enter := by
  unfold Task.enter
  split
  · exact ⟨rfl, rfl⟩
  · exact t.frame_handle _ _

theorem Task.frame_reset (t : Task) : t.Frame t.reset := by
  unfold Task.reset
  split <;> exact ⟨rfl, rfl⟩

theorem Task.frame_step (hs : t.step a = some t') : t.Frame t' := by
  rcases Task.step_cases hs with ⟨-, rfl⟩ | ⟨p, -, rfl⟩ | ⟨ending, rfl⟩
  · exact t.frame_enter
  · exact ⟨rfl, rfl⟩
  · exact t.frame_reset

theorem Task.Kept.ctx_eq (h : t.Kept) (htoken : t.token = none) : t.ctx = t.before := by
  rcases h.restores with ⟨-, hctx⟩ | hset
  · exact hctx
  · rw [htoken] at hset
    cases hset

/-- The `finally` block puts the old value back. -/
theorem Task.Kept.reset (h : t.Kept) : t.reset.token = none ∧ t.reset.ctx = t.before := by
  unfold Task.reset
  rcases h.restores with ⟨htoken, hctx⟩ | htoken
  · simp only [htoken, hctx, and_self]
  · simp only [htoken, and_self]

theorem Task.Kept.close (h : t.Kept) {p : Phase} (hp : p.Closing) : { t with phase := p }.Kept where
  restores := h.restores
  outside := by
    rintro (rfl | ⟨e, rfl⟩) <;> cases hp
  traced := by
    intro inside r hinside hr
    cases hwork : t.work with
    | request lines fresh =>
      refine h.traced inside r ?_ hr
      simpa only [Task.inside, hwork] using hinside
    | delivery c copy =>
      cases p <;> simp [Task.inside, hwork] at hinside
      cases hp

theorem Task.Kept.done (h : t.Kept) (ending : Ending) :
    { t.reset with phase := .done ending }.Kept where
  restores := .inl ⟨h.reset.1, h.reset.2.trans t.frame_reset.2.symm⟩
  outside := fun _ => h.reset.1
  traced := by
    intro inside r hinside hr
    have hwork := t.frame_reset.1
    have happ : t.reset.application = t.application := by
      unfold Task.reset
      split <;> rfl
    change t.reset.work.requestId = some r at hr
    rw [hwork] at hr
    cases hcase : t.work with
    | request lines fresh =>
      refine h.traced inside r ?_ hr
      simpa only [Task.inside, hwork, hcase, happ] using hinside
    | delivery c copy => simp [Task.inside, hwork, hcase] at hinside

theorem Task.Kept.dispatch (h : t.Kept) (hphase : t.phase = .entered)
    {lines : List (String × String)} {fresh : Uuid} (hwork : t.work = .request lines fresh) :
    (t.dispatch lines fresh).Kept where
  restores := by
    have hctx := h.ctx_eq (h.outside (.inl hphase))
    exact .inr (congrArg some hctx)
  outside := by rintro (hopen | ⟨e, hopen⟩) <;> cases hopen
  traced := by
    intro inside r hinside hr
    simp only [Task.dispatch, Task.set, Task.inside, hwork, Option.some.injEq] at hinside
    simp only [Task.dispatch, Task.set, hwork, Work.requestId] at hr
    rw [← hinside, hr]

theorem Task.Kept.adopt (h : t.Kept) (hphase : t.phase = .entered) {e : Event}
    {c : Consumer} {copy : Copy} (hwork : t.work = .delivery c copy)
    (hbody : copy.message.body = .event e) {p : Phase} (hp : p = .running ∨ p = .acking) :
    { t.adopt e with phase := p }.Kept := by
  have hctx := h.ctx_eq (h.outside (.inl hphase))
  have hid : t.work.requestId = e.requestId.filter fun id => id ≠ "" := by
    rw [hwork]
    simp only [Work.requestId, hbody]
  have hopen : ¬ (p = .entered ∨ ∃ e, p = .done e) := by
    rcases hp with rfl | rfl <;> simp
  rcases t.adopt_cases e with ⟨hadopt, hnone⟩ | ⟨id, hadopt, hsome⟩
  · rw [hadopt]
    refine ⟨h.restores, fun hphase' => absurd hphase' hopen, fun inside r _ hr => ?_⟩
    cases (hid.trans hnone).symm.trans hr
  · rw [hadopt]
    refine ⟨.inr (congrArg some hctx), fun hphase' => absurd hphase' hopen, ?_⟩
    intro inside r hinside hr
    have hr' : id = r := Option.some.inj ((hid.trans hsome).symm.trans hr)
    rcases hp with rfl | rfl
    · simp only [Task.set, Task.inside, hwork, Option.some.injEq] at hinside
      rw [← hinside, hr']
    · simp [Task.set, Task.inside, hwork] at hinside

theorem Task.Kept.handle (h : t.Kept) (hphase : t.phase = .entered) {c : Consumer} {copy : Copy}
    (hwork : t.work = .delivery c copy) : (t.handle c copy.message).Kept := by
  unfold Task.handle
  split
  · have htoken := h.outside (.inl hphase)
    refine ⟨h.restores, fun _ => htoken, fun inside r hinside => ?_⟩
    simp [Task.inside, hwork] at hinside
  · exact h.close trivial
  · next e _ hbody =>
    refine h.adopt hphase hwork hbody ?_
    split_ifs
    · exact .inl rfl
    · exact .inr rfl

/-- Every step of a task keeps it. -/
theorem Task.Kept.step (h : t.Kept) (hs : t.step a = some t') : t'.Kept := by
  rcases Task.step_cases hs with ⟨hphase, rfl⟩ | ⟨p, hp, rfl⟩ | ⟨ending, rfl⟩
  · unfold Task.enter
    split
    · next lines fresh hwork => exact h.dispatch hphase hwork
    · next c copy hwork => exact h.handle hphase hwork
  · exact h.close hp
  · exact h.done ending

/-- How the message of a delivery is settled from the phase it is in. -/
def Task.settlement (t : Task) : Option Settlement :=
  match t.phase, t.work, t.work.again with
  | .acking, .delivery .., _ => some .acked
  | .failing, .delivery .., none => some .rejected
  | .failing, .delivery _ copy, some retry =>
      some (.republished (copy.message.republished (retry + 1)))
  | _, _, _ => none

/-- The task after its handler, or when it has none to run. -/
def Task.handled (t : Task) (ok : Bool) : Task :=
  match t.enter.phase with
  | .running => { t.enter with phase := t.work.finished ok }
  | _ => t.enter

/-- A run of `_handle` settles its message as `settle` says. -/
theorem Task.settlement_handled {c : Consumer} {copy : Copy} (hwork : t.work = .delivery c copy)
    (ok : Bool) :
    (t.handled ok).settlement =
      settle maxRetries (fun eventType => decide (eventType ∈ c.eventTypes)) copy.message ok := by
  have henter : t.enter = t.handle c copy.message := by rw [Task.enter, hwork]
  cases hretry : copy.message.retry with
  | none => simp [Task.handled, henter, Task.handle, Task.settlement, settle, hretry]
  | some retry =>
    have hagain : (Work.delivery c copy).again =
        if retry + 1 ≥ maxRetries then none else some retry := by
      rw [Work.again, hretry, Option.filter_some]
      split_ifs <;> simp_all
    have hfailed (u : Task) (hu : u.work = .delivery c copy) (hphase : u.phase = .failing) :
        u.settlement = some (if retry + 1 ≥ maxRetries then .rejected
          else .republished (copy.message.republished (retry + 1))) := by
      simp only [Task.settlement, hphase, hu, hagain]
      split_ifs <;> rfl
    cases hbody : copy.message.body with
    | malformed bytes =>
      simp only [Task.handled, henter, Task.handle, settle, hretry, hbody]
      exact hfailed _ hwork rfl
    | event e =>
      have hadopt := (t.frame_adopt e).1.trans hwork
      simp only [Task.handled, henter, Task.handle, settle, hretry, hbody]
      by_cases htype : e.eventType ∈ c.eventTypes
      · simp only [htype, if_true, decide_true]
        cases ok with
        | true => simp [Task.settlement, hadopt, hwork, Work.finished]
        | false => exact hfailed _ hadopt (by simp [hwork, Work.finished])
      · simp [Task.settlement, hadopt, htype]

/-- The message is the event it is a copy of. -/
def Copy.Of (copy : Copy) (events : List Publication) : Prop :=
  ∀ n, copy.event = some n → ∃ p, events[n]? = some p ∧ copy.message.body = .event p.event

/-- What holds between any two steps. -/
structure State.Kept (s : State) : Prop where
  copies : ∀ copy ∈ s.messages, copy.Of s.events
  tasks : ∀ t ∈ s.tasks, t.Kept
  delivered : ∀ t ∈ s.tasks, ∀ c copy, t.work = .delivery c copy → copy ∈ s.messages
  published : ∀ (n : Nat) (e : Event) (i : Nat), s.events[n]? = some ⟨e, i⟩ →
    ∃ t, s.tasks[i]? = some t ∧ ∀ r, t.work.requestId = some r → e.requestId = some r

variable {s s' : State} {act : Act} {acts : List Act}

theorem Copy.Of.append {copy : Copy} {events : List Publication} (h : copy.Of events)
    (p : Publication) : copy.Of (events ++ [p]) := by
  intro n hn
  obtain ⟨q, hq, hbody⟩ := h n hn
  have hlt := (List.getElem?_eq_some_iff.mp hq).1
  exact ⟨q, (List.getElem?_append_left hlt).trans hq, hbody⟩

/-- A message `_republish` sends is a copy of what the delivered one is a copy of. -/
theorem Task.sent_cases {copy : Copy} (hcopy : copy ∈ t.sent a) :
    ∃ c old retry, t.work = .delivery c old ∧
      copy = { old with message := old.message.republished retry } := by
  unfold Task.sent at hcopy
  split at hcopy
  · split at hcopy
    · next c old retry _ hwork _ =>
      split_ifs at hcopy
      · cases hcopy
      · exact ⟨c, old, retry + 1, hwork, List.mem_singleton.mp hcopy⟩
    · cases hcopy
  · cases hcopy

theorem kept_start : State.start.Kept where
  copies := by simp [State.start]
  tasks := by simp [State.start]
  delivered := by simp [State.start]
  published := by simp [State.start]

theorem State.Kept.add (h : s.Kept) {work : Work} (before : Context)
    (hwork : ∀ c copy, work = .delivery c copy → copy ∈ s.messages) : (s.add work before).Kept where
  copies := h.copies
  tasks := by
    intro t ht
    rcases List.mem_append.mp ht with ht | hnew
    · exact h.tasks t ht
    · cases List.mem_singleton.mp hnew
      refine ⟨.inl ⟨rfl, rfl⟩, fun _ => rfl, fun inside r hinside => ?_⟩
      cases work <;> simp [Task.inside] at hinside
  delivered := by
    intro t ht c copy htwork
    rcases List.mem_append.mp ht with ht | hnew
    · exact h.delivered t ht c copy htwork
    · cases List.mem_singleton.mp hnew
      exact hwork c copy htwork
  published := by
    intro n e i hn
    obtain ⟨t, ht, hr⟩ := h.published n e i hn
    have hlt := (List.getElem?_eq_some_iff.mp ht).1
    exact ⟨t, (List.getElem?_append_left hlt).trans ht, hr⟩

theorem State.Kept.task (h : s.Kept) {i : Nat} (ht : s.tasks[i]? = some t)
    (hs : t.step a = some t') :
    State.Kept { s with tasks := s.tasks.set i t', messages := s.messages ++ t.sent a } where
  copies := by
    intro copy hcopy
    rcases List.mem_append.mp hcopy with hold | hnew
    · exact h.copies copy hold
    · obtain ⟨c, old, retry, hwork, rfl⟩ := Task.sent_cases hnew
      exact h.copies old (h.delivered t (List.mem_of_getElem? ht) c old hwork)
  tasks := by
    intro u hu
    rcases List.mem_or_eq_of_mem_set hu with hu | rfl
    · exact h.tasks u hu
    · exact (h.tasks t (List.mem_of_getElem? ht)).step hs
  delivered := by
    intro u hu c copy hwork
    refine List.mem_append_left _ ?_
    rcases List.mem_or_eq_of_mem_set hu with hu | rfl
    · exact h.delivered u hu c copy hwork
    · exact h.delivered t (List.mem_of_getElem? ht) c copy ((Task.frame_step hs).1.symm.trans hwork)
  published := by
    intro n e j hn
    obtain ⟨u, hu, hr⟩ := h.published n e j hn
    by_cases hij : i = j
    · subst hij
      have hut : u = t := Option.some.inj (hu.symm.trans ht)
      have hlt := (List.getElem?_eq_some_iff.mp ht).1
      refine ⟨t', List.getElem?_set_self hlt, fun r htr => hr r ?_⟩
      rw [hut, ← (Task.frame_step hs).1]
      exact htr
    · exact ⟨u, (List.getElem?_set_ne hij).trans hu, hr⟩

theorem State.Kept.publish (h : s.Kept) {i : Nat} (ht : s.tasks[i]? = some t) {inside : Context}
    (hinside : t.inside = some inside) (payload : Payload) (timestamp : String) :
    (s.publish i inside payload timestamp).Kept where
  copies := by
    intro copy hcopy
    rcases List.mem_append.mp hcopy with hold | hnew
    · exact (h.copies copy hold).append _
    · cases List.mem_singleton.mp hnew
      intro n hn
      cases hn
      exact ⟨_, List.getElem?_concat_length, rfl⟩
  tasks := h.tasks
  delivered := fun u hu c copy hwork => List.mem_append_left _ (h.delivered u hu c copy hwork)
  published := by
    intro n e j hn
    rcases Pool.getElem?_snoc_cases hn with ⟨-, hnew⟩ | hold
    · cases hnew
      refine ⟨t, ht, fun r hr => ?_⟩
      have hctx := (h.tasks t (List.mem_of_getElem? ht)).traced inside r hinside hr
      simp only [Event.create, hctx, Context.get, Option.getD_some]
    · exact h.published n e j hold

theorem kept_step (h : s.Kept) (hs : step s act = some s') : s'.Kept := by
  cases act with
  | request lines fresh before =>
    cases Option.some.inj hs
    exact h.add before fun c copy hwork => by cases hwork
  | deliver k c before =>
    obtain ⟨copy, hcopy, rfl⟩ := Option.map_eq_some_iff.mp hs
    refine h.add before fun c' copy' hwork => ?_
    cases hwork
    exact List.mem_of_getElem? hcopy
  | task i a =>
    simp only [step] at hs
    split at hs
    · cases hs
    · next t ht =>
      obtain ⟨t', ht', rfl⟩ := Option.map_eq_some_iff.mp hs
      exact h.task ht ht'
  | publish i payload timestamp =>
    simp only [step] at hs
    split at hs
    · cases hs
    · next t ht =>
      obtain ⟨inside, hinside, rfl⟩ := Option.map_eq_some_iff.mp hs
      exact h.publish ht hinside payload timestamp
  | foreign m =>
    cases Option.some.inj hs
    refine ⟨?_, h.tasks, fun t ht c copy hwork => ?_, h.published⟩
    · intro copy hcopy
      rcases List.mem_append.mp hcopy with hold | hnew
      · exact h.copies copy hold
      · cases List.mem_singleton.mp hnew
        intro n hn
        cases hn
    · exact List.mem_append_left _ (h.delivered t ht c copy hwork)

theorem kept_exec (hrun : exec step State.start acts = some s) : s.Kept :=
  exec_invariant State.Kept (fun _ _ _ h hs => kept_step h hs) kept_start hrun

/-- The event carries the request id. -/
def State.Carries (s : State) (r : String) (n : Nat) : Prop :=
  ∃ p, s.events[n]? = some p ∧ p.event.requestId = some r

theorem State.Kept.carries_published (h : s.Kept) {i n : Nat} (ht : s.tasks[i]? = some t)
    {r : String} (hr : t.work.requestId = some r) (hn : s.Published i n) : s.Carries r n := by
  obtain ⟨e, hn⟩ := hn
  obtain ⟨u, hu, hcarries⟩ := h.published n e i hn
  cases Option.some.inj (ht.symm.trans hu)
  exact ⟨_, hn, hcarries r hr⟩

/-- A handler passes on the request id of its event. -/
theorem State.Kept.carries_triggered (h : s.Kept) {r : String} (hr : r ≠ "") {m n : Nat}
    (hm : s.Carries r m) (hn : s.Triggers m n) : s.Carries r n := by
  obtain ⟨i, t, c, copy, ht, hwork, hevent, hpublished⟩ := hn
  obtain ⟨p, hp, hid⟩ := hm
  have hmem := h.delivered t (List.mem_of_getElem? ht) c copy hwork
  obtain ⟨q, hq, hbody⟩ := h.copies copy hmem m hevent
  cases Option.some.inj (hp.symm.trans hq)
  refine h.carries_published ht ?_ hpublished
  simp [Work.requestId, hwork, hbody, hid, hr]

theorem State.Kept.carries (h : s.Kept) {i n : Nat} (ht : s.tasks[i]? = some t) {r : String}
    (hr : t.work.requestId = some r) (hne : r ≠ "") (hn : s.Causes i n) : s.Carries r n := by
  obtain ⟨m, hm, hchain⟩ := hn
  induction hchain with
  | refl => exact h.carries_published ht hr hm
  | tail _ htriggers ih => exact h.carries_triggered hne ih htriggers

theorem State.Kept.restored (h : s.Kept) (ht : t ∈ s.tasks) {ending : Ending}
    (hdone : t.phase = .done ending) : t.ctx = t.before := by
  have hkept := h.tasks t ht
  exact hkept.ctx_eq (hkept.outside (.inr ⟨ending, hdone⟩))

/-- What an event carries, every message that is a copy of it carries. -/
theorem State.Kept.carries_copy (h : s.Kept) {r : String} {n : Nat} (hn : s.Carries r n)
    {copy : Copy} (hcopy : copy ∈ s.messages) (hevent : copy.event = some n) :
    ∃ e, copy.message.body = .event e ∧ e.requestId = some r := by
  obtain ⟨p, hp, hid⟩ := hn
  obtain ⟨q, hq, hbody⟩ := h.copies copy hcopy n hevent
  cases Option.some.inj (hp.symm.trans hq)
  exact ⟨p.event, hbody, hid⟩

/-- In every state the services reach, the events a request published or caused, and
their messages, carry its id; a run of `dispatch` or `_handle` that has ended left
the variable as it was. -/
theorem requests_traced (hrun : exec step State.start acts = some s) :
    (∀ (i : Nat) (t : Task) (lines : List (String × String)) (fresh : Uuid),
      s.tasks[i]? = some t → t.work = .request lines fresh → ∀ n, s.Causes i n →
        s.Carries (requestId lines fresh) n ∧
          ∀ copy ∈ s.messages, copy.event = some n →
            ∃ e, copy.message.body = .event e ∧ e.requestId = some (requestId lines fresh)) ∧
      ∀ t ∈ s.tasks, ∀ ending, t.phase = .done ending → t.ctx = t.before := by
  have hkept := kept_exec hrun
  refine ⟨fun i t lines fresh ht hwork n hn => ?_, fun t ht ending => hkept.restored ht⟩
  have hid : t.work.requestId = some (requestId lines fresh) := by rw [hwork, Work.requestId]
  have hcarries := hkept.carries ht hid (requestId_ne_empty lines fresh) hn
  exact ⟨hcarries, fun copy hcopy => hkept.carries_copy hcarries hcopy⟩

def inventoryConsumer : Consumer := ⟨"inventory.events", ["OrderCreated", "OrderCancelled"]⟩

/-- The handler of the first delivery fails; that of the re-published copy publishes. -/
def retriedRequest : List Act :=
  [.request [] ⟨"4f5c", by decide⟩ none, .task 0 .enter,
    .publish 0 (.orderCreated 1 10 500 [⟨1, 2⟩]) "2026-01-01T00:00:00Z",
    .task 0 (.finish true), .task 0 .leave,
    .deliver 0 inventoryConsumer none, .task 1 .enter, .task 1 (.finish false),
    .task 1 (.operation .ok), .task 1 (.operation .ok), .task 1 .leave,
    .deliver 1 inventoryConsumer (some "a1b2"), .task 2 .enter,
    .publish 2 (.stockReserved 1 [⟨1, 2⟩]) "2026-01-01T00:00:03Z",
    .task 2 (.finish true), .task 2 (.operation .ok), .task 2 .leave]

theorem requests_traced_retriedRequest :
    ∃ s t, exec step State.start retriedRequest = some s ∧ s.tasks[2]? = some t ∧ s.Causes 0 1 ∧
      s.Carries "4f5c" 1 ∧ t.phase = .done .returned ∧ t.ctx = some "a1b2" := by
  have hrequest : ((exec step State.start retriedRequest).bind fun s => s.tasks[0]?.map Task.work) =
      some (.request [] ⟨"4f5c", by decide⟩) := rfl
  have hevents : ∃ e e', (exec step State.start retriedRequest).map State.events =
      some [⟨e, 0⟩, ⟨e', 2⟩] := ⟨_, _, rfl⟩
  have hdelivery : ∃ m t,
      ((exec step State.start retriedRequest).bind fun s => s.tasks[2]?) = some t ∧
        t.work = .delivery inventoryConsumer ⟨some 0, m⟩ ∧ t.before = some "a1b2" ∧
          t.phase = .done .returned := ⟨_, _, rfl, rfl, rfl, rfl⟩
  obtain ⟨s, hs⟩ : ∃ s, exec step State.start retriedRequest = some s := ⟨_, rfl⟩
  rw [hs] at hrequest hevents hdelivery
  obtain ⟨u, hu, huwork⟩ := Option.map_eq_some_iff.mp hrequest
  obtain ⟨e, e', hevents⟩ := hevents
  obtain ⟨m, t, ht, htwork, hbefore, hdone⟩ := hdelivery
  have hcauses : s.Causes 0 1 := by
    refine ⟨0, ⟨e, ?_⟩, .single ⟨2, t, _, _, ht, htwork, rfl, e', ?_⟩⟩
    · rw [Option.some.inj hevents, List.getElem?_cons_zero]
    · rw [Option.some.inj hevents, List.getElem?_cons_succ, List.getElem?_cons_zero]
  have htraced := requests_traced hs
  refine ⟨s, t, hs, ht, hcauses, (htraced.1 0 u _ _ hu huwork 1 hcauses).1, hdone, ?_⟩
  exact (htraced.2 t (List.mem_of_getElem? ht) .returned hdone).trans hbefore

end OrderMesh.Tracing
