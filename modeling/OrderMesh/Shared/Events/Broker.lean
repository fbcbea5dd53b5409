import OrderMesh.Library.Retry
import OrderMesh.Shared.Events.Durability

namespace OrderMesh.Topology

open EStateM (Result)
open Retry (retry Failed)

/-- A robust connection, known by the attempt that opened it. -/
structure Connection where
  url : String
  attempt : Nat
  deriving DecidableEq

structure Channel where
  connection : Connection
  deriving DecidableEq

structure Exchange where
  channel : Channel
  name : String
  deriving DecidableEq

structure Broker where
  url : String
  connection : Option Connection
  channel : Option Channel
  exchange : Option Exchange
  dlx : Option Exchange
  deriving DecidableEq

/-- The broker with the connections that are open, and the attempts made so far. -/
structure Session where
  broker : Broker
  opened : List Connection
  tried : List Nat
  deriving DecidableEq

/-- `Broker(url, service_name)`. -/
def Session.start (url : String) : Session := ⟨⟨url, none, none, none, none⟩, [], []⟩

/-- The awaits of one attempt, in order. -/
inductive Step
  | openConnection
  | openChannel
  | setQos
  | declareExchange
  | declareDlx
  deriving DecidableEq

/-- For each step of an attempt the exception it raises, if it raises one. -/
abbrev Outcome := Step → Option String

def await (out : Outcome) (step : Step) : EStateM String Session Unit :=
  match out step with
  | none => pure ()
  | some exc => throw exc

def assign (f : Broker → Broker) : EStateM String Session Unit :=
  modify fun s => { s with broker := f s.broker }

/-- The body of the `try`. -/
def attempt (out : Outcome) (n : Nat) : EStateM String Session Unit := do
  modify fun s => { s with tried := s.tried ++ [n] }
  await out .openConnection
  let connection : Connection := ⟨(← get).broker.url, n⟩
  modify fun s => { s with opened := s.opened ++ [connection] }
  assign fun b => { b with connection := some connection }
  await out .openChannel
  let channel : Channel := ⟨connection⟩
  assign fun b => { b with channel := some channel }
  await out .setQos
  await out .declareExchange
  assign fun b => { b with exchange := some ⟨channel, exchangeName⟩ }
  await out .declareDlx
  assign fun b => { b with dlx := some ⟨channel, dlxName⟩ }

/-- `outcomes n` is what happens in attempt `n`. -/
def connect (retries : Nat) (outcomes : Nat → Outcome) (s : Session) : Result String Session Unit :=
  match retry (fun n => attempt (outcomes n) n) (List.range' 1 retries) none s with
  | .ok _ t => .ok () t
  | .error last t =>
      let lastErr := last.getD "None"
      .error s!"Could not connect to RabbitMQ after {retries} attempts: {lastErr}" t

/-- The exchange and the message that is sent to it. -/
def Broker.publish (b : Broker) (event : Event) : Except String (Exchange × Message) :=
  match b.exchange with
  | none => .error "Broker is not connected"
  | some exchange => .ok (exchange, OrderMesh.publish event)

def close (s : Session) : Session :=
  match s.broker.connection with
  | none => s
  | some connection => { s with opened := s.opened.erase connection }

/-- All fields come from attempt `n`. -/
def Broker.FromAttempt (b : Broker) (n : Nat) : Prop :=
  let channel : Channel := ⟨⟨b.url, n⟩⟩
  b.connection = some channel.connection ∧ b.channel = some channel ∧
    b.exchange = some ⟨channel, exchangeName⟩ ∧ b.dlx = some ⟨channel, dlxName⟩

def Fails (out : Outcome) : Prop := ∃ step, out step ≠ none

/-- What `connect` promises about the way it ends. -/
def Clean (retries : Nat) (outcomes : Nat → Outcome) : Result String Session Unit → Prop
  | .ok _ s => ∃ n, s.tried.getLast? = some n ∧ s.broker.FromAttempt n ∧
      s.opened = [⟨s.broker.url, n⟩]
  | .error _ s => s.tried = List.range' 1 retries ∧ (∀ n ∈ s.tried, Fails (outcomes n)) ∧
      s.opened = [] ∧ ∀ event, s.broker.publish event = .error "Broker is not connected"

/-- Every attempt that fails, up to the first that does not, fails to open its connection. -/
def FailsEarly (retries : Nat) (outcomes : Nat → Outcome) : Prop :=
  ∀ n, 1 ≤ n → n ≤ retries → (∀ m, 1 ≤ m → m ≤ n → Fails (outcomes m)) →
    outcomes n .openConnection ≠ none

/-- The step with those before it. -/
def Step.upTo : Step → List Step
  | .openConnection => [.openConnection]
  | .openChannel => [.openConnection, .openChannel]
  | .setQos => [.openConnection, .openChannel, .setQos]
  | .declareExchange => [.openConnection, .openChannel, .setQos, .declareExchange]
  | .declareDlx => [.openConnection, .openChannel, .setQos, .declareExchange, .declareDlx]

def Step.passed (step : Step) (out : Outcome) : Bool := step.upTo.all fun k => (out k).isNone

/-- The exception of the attempt, if it raises one. -/
def Outcome.raised (out : Outcome) : Option String := Step.declareDlx.upTo.findSome? out

/-- The session after attempt `n`. -/
def Session.record (s : Session) (out : Outcome) (n : Nat) : Session :=
  let channel : Channel := ⟨⟨s.broker.url, n⟩⟩
  { broker :=
      { url := s.broker.url
        connection :=
          if Step.openConnection.passed out then some channel.connection else s.broker.connection
        channel := if Step.openChannel.passed out then some channel else s.broker.channel
        exchange :=
          if Step.declareExchange.passed out then some ⟨channel, exchangeName⟩
          else s.broker.exchange
        dlx := if Step.declareDlx.passed out then some ⟨channel, dlxName⟩ else s.broker.dlx }
    opened :=
      if Step.openConnection.passed out then s.opened ++ [channel.connection] else s.opened
    tried := s.tried ++ [n] }

theorem await_returns {out : Outcome} {step : Step} (h : out step = none) :
    await out step = pure () := by
  rw [await, h]

theorem await_raises {out : Outcome} {step : Step} {exc : String} (h : out step = some exc) :
    await out step = throw exc := by
  rw [await, h]

theorem attempt_eq (out : Outcome) (n : Nat) (s : Session) :
    attempt out n s =
      match out.raised with
      | none => .ok () (s.record out n)
      | some exc => .error exc (s.record out n) := by
  unfold attempt Outcome.raised Session.record Step.passed Step.upTo
  cases h1 : out .openConnection with
  | some exc =>
    rw [await_raises h1]
    simp [h1]
    rfl
  | none =>
    rw [await_returns h1]
    cases h2 : out .openChannel with
    | some exc =>
      rw [await_raises h2]
      simp [h1, h2]
      rfl
    | none =>
      rw [await_returns h2]
      cases h3 : out .setQos with
      | some exc =>
        rw [await_raises h3]
        simp [h1, h2, h3]
        rfl
      | none =>
        rw [await_returns h3]
        cases h4 : out .declareExchange with
        | some exc =>
          rw [await_raises h4]
          simp [h1, h2, h3, h4]
          rfl
        | none =>
          rw [await_returns h4]
          cases h5 : out .declareDlx with
          | some exc =>
            rw [await_raises h5]
            simp [h1, h2, h3, h4, h5]
            rfl
          | none =>
            rw [await_returns h5]
            simp [h1, h2, h3, h4, h5]
            rfl

theorem raised_eq_none {out : Outcome} : out.raised = none ↔ ¬ Fails out := by
  unfold Outcome.raised Fails
  rw [List.findSome?_eq_none_iff]
  constructor
  · intro h hfails
    obtain ⟨step, hstep⟩ := hfails
    exact hstep (h step (by cases step <;> simp [Step.upTo]))
  · intro h step hmem
    by_contra hstep
    exact h ⟨step, hstep⟩

theorem passed_of_raised {out : Outcome} (h : out.raised = none) (step : Step) :
    step.passed out = true := by
  have hnone : ∀ k, out k = none := by
    intro k
    by_contra hk
    exact raised_eq_none.mp h ⟨k, hk⟩
  refine List.all_eq_true.mpr fun k _ => ?_
  rw [hnone]
  rfl

theorem passed_openConnection (out : Outcome) :
    Step.openConnection.passed out = true ↔ out .openConnection = none := by
  simp [Step.passed, Step.upTo]

section

variable (url : String) (outcomes : Nat → Outcome)

/-- The last of the attempts that went through the step. -/
def lastPassed (step : Step) (ns : List Nat) : Option Nat :=
  (ns.filter fun n => step.passed (outcomes n)).getLast?

/-- The session after these attempts. -/
def Session.after (ns : List Nat) : Session where
  broker :=
    { url := url
      connection := (lastPassed outcomes .openConnection ns).map fun n => ⟨url, n⟩
      channel := (lastPassed outcomes .openChannel ns).map fun n => ⟨⟨url, n⟩⟩
      exchange := (lastPassed outcomes .declareExchange ns).map fun n => ⟨⟨⟨url, n⟩⟩, exchangeName⟩
      dlx := (lastPassed outcomes .declareDlx ns).map fun n => ⟨⟨⟨url, n⟩⟩, dlxName⟩ }
  opened := (ns.filter fun n => Step.openConnection.passed (outcomes n)).map fun n => ⟨url, n⟩
  tried := ns

theorem lastPassed_snoc (step : Step) (ns : List Nat) (n : Nat) :
    lastPassed outcomes step (ns ++ [n]) =
      if step.passed (outcomes n) then some n else lastPassed outcomes step ns := by
  unfold lastPassed
  rw [List.filter_append]
  by_cases h : step.passed (outcomes n) = true
  · simp [h]
  · simp [h]

theorem after_snoc (ns : List Nat) (n : Nat) :
    Session.after url outcomes (ns ++ [n]) =
      (Session.after url outcomes ns).record (outcomes n) n := by
  have hfield {α : Type} (f : Nat → α) (step : Step) :
      (lastPassed outcomes step (ns ++ [n])).map f =
        if step.passed (outcomes n) then some (f n) else (lastPassed outcomes step ns).map f := by
    rw [lastPassed_snoc]
    split_ifs <;> rfl
  have hopened (f : Nat → Connection) (p : Nat → Bool) :
      ((ns ++ [n]).filter p).map f =
        if p n then (ns.filter p).map f ++ [f n] else (ns.filter p).map f := by
    rw [List.filter_append, List.map_append]
    by_cases h : p n = true
    · simp [h]
    · simp [h]
  simp only [Session.after, Session.record, hfield, hopened]

variable {url outcomes}

theorem failed_after {ns : List Nat} {last : Option String} {s : Session}
    (h : Failed (fun n => attempt (outcomes n) n) ns none (.start url) last s) :
    s = .after url outcomes ns ∧ ∀ n ∈ ns, Fails (outcomes n) := by
  refine h.rule (fun done s => s = .after url outcomes done ∧ ∀ n ∈ done, Fails (outcomes n))
    (fun done n s e t hs ht => ?_) [] ⟨rfl, fun n hn => ?_⟩
  · obtain ⟨rfl, hfails⟩ := hs
    rw [attempt_eq] at ht
    split at ht
    · cases ht
    · rename_i exc hraised
      cases ht
      refine ⟨(after_snoc url outcomes done n).symm, fun m hm => ?_⟩
      cases List.mem_append.mp hm with
      | inl hold => exact hfails m hold
      | inr hnew =>
        rw [List.mem_singleton.mp hnew]
        by_contra hnot
        rw [raised_eq_none.mpr hnot] at hraised
        cases hraised
  · cases hn

/-- `connect` ends after the first attempt without an exception, or after all of them. -/
theorem connect_cases (url : String) (retries : Nat) (outcomes : Nat → Outcome) :
    (∃ n, n < retries ∧ (∀ m ∈ List.range' 1 n, Fails (outcomes m)) ∧ ¬ Fails (outcomes (n + 1)) ∧
      connect retries outcomes (.start url) =
        .ok () (.after url outcomes (List.range' 1 n ++ [n + 1]))) ∨
    (∀ m ∈ List.range' 1 retries, Fails (outcomes m)) ∧
      ∃ text, connect retries outcomes (.start url) =
        .error text (.after url outcomes (List.range' 1 retries)) := by
  unfold connect
  cases hretry : retry (fun n => attempt (outcomes n) n) (List.range' 1 retries) none
      (.start url) with
  | ok a s =>
    obtain ⟨pre, k, post, mid, u, hsplit, hfailed, hk⟩ := Retry.retry_eq_ok.mp hretry
    obtain ⟨n, hn, rfl, hrest⟩ := List.range'_eq_append_iff.mp hsplit
    obtain ⟨hnext, hlt, -⟩ := List.range'_eq_cons_iff.mp hrest.symm
    obtain rfl : k = n + 1 := by omega
    obtain ⟨rfl, hfails⟩ := failed_after hfailed
    rw [attempt_eq] at hk
    split at hk
    · rename_i hraised
      cases hk
      refine .inl ⟨n, by omega, hfails, raised_eq_none.mp hraised, ?_⟩
      dsimp only
      rw [after_snoc]
    · cases hk
  | error last s =>
    obtain ⟨rfl, hfails⟩ := failed_after (Retry.retry_eq_error.mp hretry)
    exact .inr ⟨hfails, _, rfl⟩

end

section

variable (url : String) (outcomes : Nat → Outcome) (ns : List Nat)

theorem opened_eq_nil : (Session.after url outcomes ns).opened = [] ↔
    ∀ n ∈ ns, outcomes n .openConnection ≠ none := by
  unfold Session.after
  dsimp only
  rw [List.map_eq_nil_iff, List.filter_eq_nil_iff]
  simp only [passed_openConnection, ne_eq]

theorem publish_after (event : Event) :
    (Session.after url outcomes ns).broker.publish event =
      match lastPassed outcomes .declareExchange ns with
      | none => .error "Broker is not connected"
      | some n => .ok (⟨⟨⟨url, n⟩⟩, exchangeName⟩, OrderMesh.publish event) := by
  unfold Session.after Broker.publish
  cases lastPassed outcomes .declareExchange ns <;> rfl

/-- No connection was opened, so no field was assigned. -/
theorem publish_of_opened_eq_nil (h : (Session.after url outcomes ns).opened = []) (event : Event) :
    (Session.after url outcomes ns).broker.publish event = .error "Broker is not connected" := by
  have hnone : lastPassed outcomes .declareExchange ns = none := by
    unfold lastPassed
    rw [List.getLast?_eq_none_iff, List.filter_eq_nil_iff]
    intro n hn hpassed
    have hopen := (opened_eq_nil url outcomes ns).mp h n hn
    have hfirst := List.all_eq_true.mp hpassed .openConnection (by simp [Step.upTo])
    exact hopen (Option.isNone_iff_eq_none.mp hfirst)
  rw [publish_after, hnone]

theorem fromAttempt_after {n : Nat} (h : ¬ Fails (outcomes n)) :
    (Session.after url outcomes (ns ++ [n])).broker.FromAttempt n := by
  have hlast (step : Step) : lastPassed outcomes step (ns ++ [n]) = some n := by
    rw [lastPassed_snoc, if_pos (passed_of_raised (raised_eq_none.mpr h) step)]
  unfold Session.after Broker.FromAttempt
  simp [hlast]

theorem opened_snoc {n : Nat} (h : ¬ Fails (outcomes n)) :
    (Session.after url outcomes (ns ++ [n])).opened =
      (Session.after url outcomes ns).opened ++ [⟨url, n⟩] := by
  rw [after_snoc]
  exact if_pos (passed_of_raised (raised_eq_none.mpr h) .openConnection)

end

/-- `n` is the number of failed attempts before `connect` ends. -/
theorem failsEarly_iff (url : String) {retries n : Nat} {outcomes : Nat → Outcome}
    (hn : n ≤ retries) (hfails : ∀ m ∈ List.range' 1 n, Fails (outcomes m))
    (hstop : n < retries → ¬ Fails (outcomes (n + 1))) :
    FailsEarly retries outcomes ↔ (Session.after url outcomes (List.range' 1 n)).opened = [] := by
  rw [opened_eq_nil]
  constructor
  · intro h m hm
    obtain ⟨hpos, hlt⟩ := List.mem_range'_1.mp hm
    exact h m hpos (by omega) fun k hk hkm => hfails k (List.mem_range'_1.mpr (by omega))
  · intro h m hpos hle hall
    have hmn : m ≤ n := by
      by_contra hgt
      exact hstop (by omega) (hall (n + 1) (by omega) (by omega))
    exact h m (List.mem_range'_1.mpr (by omega))

/-- `connect` is clean if and only if its failed attempts fail before they have anything to
leave behind. -/
theorem connect_clean_iff (url : String) (retries : Nat) (outcomes : Nat → Outcome) :
    Clean retries outcomes (connect retries outcomes (.start url)) ↔
      FailsEarly retries outcomes := by
  rcases connect_cases url retries outcomes with ⟨n, hn, hfails, hlast, hrun⟩ | ⟨hfails, text, hrun⟩
  · rw [hrun, failsEarly_iff url (Nat.le_of_lt hn) hfails fun _ => hlast]
    constructor
    · intro h
      obtain ⟨k, -, -, hopened⟩ := h
      rw [opened_snoc url outcomes _ hlast] at hopened
      have hlength := congrArg List.length hopened
      rw [List.length_append, List.length_singleton, List.length_singleton] at hlength
      exact List.length_eq_zero_iff.mp (by omega)
    · intro h
      refine ⟨n + 1, List.getLast?_concat .., fromAttempt_after url outcomes _ hlast, ?_⟩
      rw [opened_snoc url outcomes _ hlast, h]
      rfl
  · rw [hrun, failsEarly_iff url (Nat.le_refl retries) hfails fun h => absurd h (Nat.lt_irrefl _)]
    constructor
    · intro h
      exact h.2.2.1
    · intro h
      exact ⟨rfl, hfails, h, publish_of_opened_eq_nil url outcomes _ h⟩

/-- The dead-letter exchange exists already, with other properties. -/
def dlxRefused : Outcome
  | .declareDlx => some "PRECONDITION_FAILED - inequivalent arg 'type' for exchange 'logistics.dlx'"
  | _ => none

theorem dlxRefused_leaks : ∃ text s,
    connect 1 (fun _ => dlxRefused) (.start "amqp://rabbitmq") = .error text s ∧
      s.opened = [⟨"amqp://rabbitmq", 1⟩] ∧ s.broker.exchange.isSome ∧
      ¬ Clean 1 (fun _ => dlxRefused)
        (connect 1 (fun _ => dlxRefused) (.start "amqp://rabbitmq")) := by
  refine ⟨_, _, rfl, rfl, rfl, fun h => ?_⟩
  have hopened := h.2.2.1
  cases hopened

/-- Only the last of the connections is closed. -/
theorem close_after (url : String) (outcomes : Nat → Outcome) {ns : List Nat} (hnodup : ns.Nodup) :
    (close (.after url outcomes ns)).opened = (Session.after url outcomes ns).opened.dropLast := by
  unfold Session.after close lastPassed
  dsimp only
  generalize hpassed : ns.filter (fun n => Step.openConnection.passed (outcomes n)) = opened
  have hopened : opened.Nodup := hpassed ▸ hnodup.filter _
  induction opened using List.reverseRecOn with
  | nil => rfl
  | append_singleton rest n _ =>
    have hnew : (⟨url, n⟩ : Connection) ∉ rest.map fun k => ⟨url, k⟩ := by
      intro hmem
      obtain ⟨k, hk, heq⟩ := List.mem_map.mp hmem
      cases heq
      exact (List.nodup_append.mp hopened).2.2 n hk n (List.mem_singleton_self n) rfl
    rw [List.getLast?_concat, Option.map_some, List.map_append, List.map_singleton,
      List.dropLast_concat]
    dsimp only
    rw [List.erase_append_right _ hnew, List.erase_cons_head, List.append_nil]

/-- However `connect` ends, the connections of the earlier attempts outlive `close`. -/
theorem close_connect {url : String} {retries : Nat} {outcomes : Nat → Outcome} {s : Session}
    (h : connect retries outcomes (.start url) = .ok () s ∨
      ∃ text, connect retries outcomes (.start url) = .error text s) :
    (close s).opened = s.opened.dropLast := by
  rcases connect_cases url retries outcomes with ⟨n, hn, -, -, hrun⟩ | ⟨-, text, hrun⟩
  · have hnodup : (List.range' 1 n ++ [n + 1]).Nodup := by
      rw [Nat.add_comm n 1, ← List.range'_1_concat]
      exact List.nodup_range'
    rw [hrun] at h
    rcases h with hok | ⟨text, herror⟩
    · cases hok
      exact close_after url outcomes hnodup
    · cases herror
  · rw [hrun] at h
    rcases h with hok | ⟨text', herror⟩
    · cases hok
    · cases herror
      exact close_after url outcomes List.nodup_range'

end OrderMesh.Topology
