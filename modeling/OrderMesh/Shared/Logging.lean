import OrderMesh.Library.JsonLines
import OrderMesh.Shared.Events.Tracing

namespace OrderMesh.Tracing

open Transition

/-- The fields that the formatter reads, with the message and the text of the exception put
together. -/
structure LogRecord where
  levelname : String
  name : String
  message : String
  excInfo : Option String

/-- The dictionary that `JsonFormatter.format` builds. -/
def logged (serviceName timestamp : String) (ctx : Context) (record : LogRecord) : Json Empty :=
  .obj ([("timestamp", .str timestamp), ("level", .str record.levelname),
      ("service", .str serviceName), ("request_id", .str ctx.get), ("logger", .str record.name),
      ("message", .str record.message)] ++
    (record.excInfo.map fun text => ("exception", .str text)).toList)

/-- `JsonFormatter.format` -/
def format (serviceName timestamp : String) (ctx : Context) (record : LogRecord) : String :=
  Json.dumps (fun x : Empty => x.elim) (logged serviceName timestamp ctx record)

/-- A call of the logger. -/
structure Entry where
  task : Nat
  serviceName : String
  timestamp : String
  ctx : Context
  record : LogRecord

def Entry.logged (e : Entry) : Json Empty :=
  Tracing.logged e.serviceName e.timestamp e.ctx e.record

/-- The handler of the stream writes the text and a newline. -/
def Entry.line (e : Entry) : String := format e.serviceName e.timestamp e.ctx e.record ++ "\n"

/-- The context that the code of a task logs in, while it has any to run: the handler's,
`logger.exception` and the warning after `_republish`. -/
def Task.speaks (t : Task) : Option Context :=
  match t.work, t.phase with
  | .request .., _ => t.application
  | .delivery .., .running => some t.ctx
  | .delivery .., .failing => some t.ctx
  | .delivery .., .republished => some t.ctx
  | .delivery .., _ => none

structure Journal where
  services : State
  entries : List Entry

inductive JournalAct
  | act (a : Act)
  | log (i : Nat) (serviceName timestamp : String) (record : LogRecord)

def journalStep (j : Journal) : JournalAct → Option Journal
  | .act a => (step j.services a).map fun s => { j with services := s }
  | .log i serviceName timestamp record =>
      match j.services.tasks[i]? with
      | none => none
      | some t =>
          t.speaks.map fun ctx =>
            { j with entries := j.entries ++ [⟨i, serviceName, timestamp, ctx, record⟩] }

def Journal.start : Journal := ⟨.start, []⟩

/-- What the services have written to their streams. -/
def Journal.output (j : Journal) : String := String.join (j.entries.map Entry.line)

/-- The task is the request's, or handles an event that the request caused. -/
def State.Serves (s : State) (i k : Nat) : Prop :=
  k = i ∨ ∃ t c copy n, s.tasks[k]? = some t ∧ t.work = .delivery c copy ∧ copy.event = some n ∧
    s.Causes i n

variable {t t' : Task} {a : TaskAct}

/-- Between its first step and its last one a task has its request id in its context. -/
def Task.Labelled (t : Task) : Prop :=
  ∀ r, t.work.requestId = some r → t.phase ≠ .entered → (∀ e, t.phase ≠ .done e) → t.ctx = some r

theorem Task.step_entered (hphase : t.phase = .entered) (hs : t.step a = some t') :
    t' = t.enter := by
  cases a with
  | enter =>
    simp only [Task.step, hphase] at hs
    exact (Option.some.inj hs).symm
  | _ => simp [Task.step, hphase] at hs

theorem Task.step_done {ending : Ending} (hphase : t.phase = .done ending) : t.step a = none := by
  cases a <;> simp [Task.step, hphase]

theorem Task.labelled_adopt {e : Event} {c : Consumer} {copy : Copy}
    (hwork : t.work = .delivery c copy) (hbody : copy.message.body = .event e) (r : String)
    (hr : t.work.requestId = some r) : (t.adopt e).ctx = some r := by
  have hid : e.requestId.filter (fun id => id ≠ "") = some r := by
    rw [hwork] at hr
    simpa only [Work.requestId, hbody] using hr
  rcases t.adopt_cases e with ⟨-, hnone⟩ | ⟨id, hadopt, hsome⟩
  · rw [hnone] at hid
    cases hid
  · rw [hadopt, ← hid, hsome]
    rfl

theorem Task.labelled_handle {c : Consumer} {copy : Copy} (hwork : t.work = .delivery c copy) :
    (t.handle c copy.message).Labelled := by
  intro r hr _ hdone
  rw [(t.frame_handle c copy.message).1] at hr
  cases hretry : copy.message.retry with
  | none =>
    have hphase : (t.handle c copy.message).phase = .done .raised := by
      simp [Task.handle, hretry]
    exact absurd hphase (hdone .raised)
  | some retry =>
    cases hbody : copy.message.body with
    | malformed bytes => simp [hwork, Work.requestId, hbody] at hr
    | event e =>
      have hctx : (t.handle c copy.message).ctx = (t.adopt e).ctx := by
        simp [Task.handle, hretry, hbody]
      rw [hctx]
      exact t.labelled_adopt hwork hbody r hr

theorem Task.labelled_enter (t : Task) : t.enter.Labelled := by
  unfold Task.enter
  split
  · next lines fresh hwork =>
    intro r hr _ _
    have hid : t.work.requestId = some (requestId lines fresh) := by rw [hwork, Work.requestId]
    have hframe : (t.dispatch lines fresh).work = t.work := rfl
    rw [hframe, hid] at hr
    exact hr
  · next c copy hwork => exact Task.labelled_handle hwork

theorem Task.Labelled.step (h : t.Labelled) (hs : t.step a = some t') : t'.Labelled := by
  by_cases hentered : t.phase = .entered
  · rw [Task.step_entered hentered hs]
    exact t.labelled_enter
  · have hopen : ∀ e, t.phase ≠ .done e := by
      intro e hdone
      rw [Task.step_done hdone] at hs
      cases hs
    rcases Task.step_cases hs with ⟨hphase, -⟩ | ⟨p, -, rfl⟩ | ⟨ending, rfl⟩
    · exact absurd hphase hentered
    · intro r hr _ _
      exact h r hr hentered hopen
    · intro r _ _ hdone
      exact absurd rfl (hdone ending)

theorem Task.Labelled.speaks (h : t.Labelled) (hkept : t.Kept) {ctx : Context} {r : String}
    (hspeaks : t.speaks = some ctx) (hr : t.work.requestId = some r) : ctx = some r := by
  cases hwork : t.work with
  | request lines fresh =>
    apply hkept.traced ctx r _ hr
    simpa only [Task.speaks, Task.inside, hwork] using hspeaks
  | delivery c copy =>
    have hctx : ctx = t.ctx ∧ t.phase ≠ .entered ∧ ∀ e, t.phase ≠ .done e := by
      cases hphase : t.phase <;> simp [Task.speaks, hwork, hphase] at hspeaks <;> simp [hspeaks]
    rw [hctx.1]
    exact h r hr hctx.2.1 hctx.2.2

structure Journal.Kept (j : Journal) : Prop where
  services : j.services.Kept
  labelled : ∀ t ∈ j.services.tasks, t.Labelled
  entries : ∀ e ∈ j.entries, ∃ t, j.services.tasks[e.task]? = some t ∧
    ∀ r, t.work.requestId = some r → e.ctx = some r

/-- A step keeps what the tasks work on. -/
theorem step_tasks {s s' : State} {act : Act} (hs : step s act = some s') :
    (∀ (i : Nat) (t : Task), s.tasks[i]? = some t →
      ∃ t', s'.tasks[i]? = some t' ∧ t'.work = t.work) ∧
    ((∀ t ∈ s.tasks, t.Labelled) → ∀ t ∈ s'.tasks, t.Labelled) := by
  have hadded (work : Work) (before : Context) (h : some (s.add work before) = some s') :
      (∀ (i : Nat) (t : Task), s.tasks[i]? = some t →
        ∃ t', s'.tasks[i]? = some t' ∧ t'.work = t.work) ∧
      ((∀ t ∈ s.tasks, t.Labelled) → ∀ t ∈ s'.tasks, t.Labelled) := by
    cases Option.some.inj h
    constructor
    · intro i t ht
      have hlt := (List.getElem?_eq_some_iff.mp ht).1
      exact ⟨t, (List.getElem?_append_left hlt).trans ht, rfl⟩
    · intro hlabelled t ht
      rcases List.mem_append.mp ht with hold | hnew
      · exact hlabelled t hold
      · rw [List.mem_singleton.mp hnew]
        intro r _ hphase
        exact absurd rfl hphase
  have hsame (h : s'.tasks = s.tasks) :
      (∀ (i : Nat) (t : Task), s.tasks[i]? = some t →
        ∃ t', s'.tasks[i]? = some t' ∧ t'.work = t.work) ∧
      ((∀ t ∈ s.tasks, t.Labelled) → ∀ t ∈ s'.tasks, t.Labelled) := by
    rw [h]
    exact ⟨fun i t ht => ⟨t, ht, rfl⟩, id⟩
  cases act with
  | request lines fresh before => exact hadded _ _ hs
  | deliver k c before =>
    obtain ⟨copy, -, rfl⟩ := Option.map_eq_some_iff.mp hs
    exact hadded _ _ rfl
  | task i a =>
    simp only [step] at hs
    split at hs
    · cases hs
    · next t ht =>
      obtain ⟨t', ht', rfl⟩ := Option.map_eq_some_iff.mp hs
      constructor
      · intro k u hu
        by_cases hik : i = k
        · subst hik
          cases Option.some.inj (hu.symm.trans ht)
          have hlt := (List.getElem?_eq_some_iff.mp ht).1
          exact ⟨t', List.getElem?_set_self hlt, (Task.frame_step ht').1⟩
        · exact ⟨u, (List.getElem?_set_ne hik).trans hu, rfl⟩
      · intro hlabelled u hu
        rcases List.mem_or_eq_of_mem_set hu with hold | rfl
        · exact hlabelled u hold
        · exact (hlabelled t (List.mem_of_getElem? ht)).step ht'
  | publish i payload timestamp =>
    simp only [step] at hs
    split at hs
    · cases hs
    · obtain ⟨inside, -, rfl⟩ := Option.map_eq_some_iff.mp hs
      exact hsame rfl
  | foreign m =>
    cases Option.some.inj hs
    exact hsame rfl

theorem journalStep_kept {j j' : Journal} {act : JournalAct} (h : j.Kept)
    (hs : journalStep j act = some j') : j'.Kept := by
  cases act with
  | act a =>
    obtain ⟨s, hstep, rfl⟩ := Option.map_eq_some_iff.mp hs
    obtain ⟨hworks, hlabelled⟩ := step_tasks hstep
    refine ⟨kept_step h.services hstep, hlabelled h.labelled, fun e he => ?_⟩
    obtain ⟨t, ht, hctx⟩ := h.entries e he
    obtain ⟨t', ht', hwork⟩ := hworks e.task t ht
    exact ⟨t', ht', fun r hr => hctx r (hwork ▸ hr)⟩
  | log i serviceName timestamp record =>
    simp only [journalStep] at hs
    split at hs
    · cases hs
    · next t ht =>
      obtain ⟨ctx, hspeaks, rfl⟩ := Option.map_eq_some_iff.mp hs
      refine ⟨h.services, h.labelled, fun e he => ?_⟩
      rcases List.mem_append.mp he with hold | hnew
      · exact h.entries e hold
      · rw [List.mem_singleton.mp hnew]
        have hmem := List.mem_of_getElem? ht
        refine ⟨t, ht, fun r hr => ?_⟩
        exact (h.labelled t hmem).speaks (h.services.tasks t hmem) hspeaks hr

theorem exec_journal {acts : List JournalAct} {j : Journal}
    (hrun : exec journalStep .start acts = some j) : j.Kept := by
  apply exec_invariant Journal.Kept (fun _ _ _ h hs => journalStep_kept h hs) _ hrun
  refine ⟨kept_start, ?_, ?_⟩
  · intro t ht
    cases ht
  · intro e he
    cases he

theorem output_eq (j : Journal) :
    j.output = Json.dumpLines (fun x : Empty => x.elim) (j.entries.map Entry.logged) := by
  unfold Journal.output Json.dumpLines
  rw [List.map_map]
  rfl

theorem get?_request_id (e : Entry) : e.logged.get? "request_id" = some (.str e.ctx.get) := by
  obtain ⟨task, serviceName, timestamp, ctx, levelname, name, message, excInfo⟩ := e
  cases excInfo <;> rfl

/-- In every run, the lines of the logs load as the records that were logged, one from a
line, whatever the texts in them; and what was logged for a request, by itself or by a
handler of an event it caused, carries its id. -/
theorem logs_traced (acts : List JournalAct) (j : Journal)
    (hrun : exec journalStep .start acts = some j) :
    Json.loadLines j.output = some (j.entries.map Entry.logged) ∧
    ∀ (i : Nat) (t : Task) (lines : List (String × String)) (fresh : Uuid),
      j.services.tasks[i]? = some t → t.work = .request lines fresh →
      ∀ e ∈ j.entries, j.services.Serves i e.task →
        e.logged.get? "request_id" = some (.str (requestId lines fresh)) := by
  have hkept := exec_journal hrun
  constructor
  · rw [output_eq, Json.loadLines_dumpLines]
    simp only [Json.defaulted_self, List.map_id']
  · intro i t lines fresh ht hwork e he hserves
    have hid : t.work.requestId = some (requestId lines fresh) := by rw [hwork, Work.requestId]
    have hne := requestId_ne_empty lines fresh
    obtain ⟨u, hu, hctx⟩ := hkept.entries e he
    have hlabel : u.work.requestId = some (requestId lines fresh) := by
      rcases hserves with hself | ⟨v, c, copy, n, hv, hdelivery, hevent, hcauses⟩
      · rw [hself] at hu
        rw [Option.some.inj (hu.symm.trans ht), hid]
      · cases Option.some.inj (hu.symm.trans hv)
        have hmem := hkept.services.delivered u (List.mem_of_getElem? hu) c copy hdelivery
        have hcarries := hkept.services.carries ht hid hne hcauses
        obtain ⟨event, hbody, hrequest⟩ := hkept.services.carries_copy hcarries hmem hevent
        simp [Work.requestId, hdelivery, hbody, hrequest, hne]
    rw [get?_request_id, hctx _ hlabel]
    rfl

/-- The handler of the request's event fails with a text of several lines. -/
def loggedRequest : List JournalAct :=
  [.act (.request [] ⟨"9d21", by decide⟩ none), .act (.task 0 .enter),
    .act (.publish 0 (.orderCreated 1 10 500 [⟨1, 2⟩]) "2026-01-01T00:00:00Z"),
    .log 0 "order-service" "2026-01-01T00:00:00Z"
      ⟨"INFO", "shared.events.broker", "Published OrderCreated", none⟩,
    .act (.deliver 0 inventoryConsumer none), .act (.task 1 .enter), .act (.task 1 (.finish false)),
    .log 1 "inventory-service" "2026-01-01T00:00:01Z"
      ⟨"ERROR", "shared.events.consumer", "Handler error: a\n\"b\"", some "ValueError: a\n\"b\""⟩]

theorem logs_traced_loggedRequest :
    ∃ j, exec journalStep .start loggedRequest = some j ∧ j.entries.map Entry.task = [0, 1] ∧
      Json.loadLines j.output = some (j.entries.map Entry.logged) ∧
      ∀ e ∈ j.entries, e.logged.get? "request_id" = some (.str "9d21") := by
  have hentries : (exec journalStep .start loggedRequest).map
      (fun j => j.entries.map Entry.task) = some [0, 1] := rfl
  have hrequest : ((exec journalStep .start loggedRequest).bind
      fun j => j.services.tasks[0]?.map Task.work) = some (.request [] ⟨"9d21", by decide⟩) := rfl
  have hevents : ∃ e, (exec journalStep .start loggedRequest).map
      (fun j => j.services.events) = some [⟨e, 0⟩] := ⟨_, rfl⟩
  have hdelivery : ∃ m t, ((exec journalStep .start loggedRequest).bind
      fun j => j.services.tasks[1]?) = some t ∧
        t.work = .delivery inventoryConsumer ⟨some 0, m⟩ := ⟨_, _, rfl, rfl⟩
  obtain ⟨j, hj⟩ : ∃ j, exec journalStep .start loggedRequest = some j := ⟨_, rfl⟩
  rw [hj] at hentries hrequest hevents hdelivery
  have htasks : j.entries.map Entry.task = [0, 1] := Option.some.inj hentries
  obtain ⟨t, ht, hwork⟩ := Option.map_eq_some_iff.mp hrequest
  obtain ⟨event, hevents⟩ := hevents
  obtain ⟨m, u, hu, huwork⟩ := hdelivery
  have hcauses : j.services.Causes 0 0 := by
    refine ⟨0, ⟨event, ?_⟩, .refl⟩
    have heq : j.services.events = [⟨event, 0⟩] := Option.some.inj hevents
    rw [heq, List.getElem?_cons_zero]
  obtain ⟨hlines, htraced⟩ := logs_traced loggedRequest j hj
  refine ⟨j, hj, htasks, hlines, fun e he => htraced 0 t [] _ ht hwork e he ?_⟩
  have hmem : e.task ∈ [0, 1] := htasks ▸ List.mem_map_of_mem he
  simp only [List.mem_cons, List.not_mem_nil, or_false] at hmem
  rcases hmem with hself | hserved
  · exact .inl hself
  · exact .inr ⟨u, _, _, 0, hserved ▸ hu, huwork, rfl, hcauses⟩

end OrderMesh.Tracing
