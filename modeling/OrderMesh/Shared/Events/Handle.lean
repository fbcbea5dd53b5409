import Mathlib.Algebra.Group.Int.Defs
import Mathlib.Algebra.Order.Ring.Unbundled.Rat
import OrderMesh.Shared.Events.Durability

namespace OrderMesh

/-- What the JSON validation makes of bodies, and `int` and AMQP of header values: `validate` and
`int` are `none` when they raise, `ofInt` when a message with the integer cannot be published. -/
structure Wire (B V E : Type) where
  validate : B → Option E
  eventType : E → String
  int : V → Option Int
  ofInt : Int → Option V
  isSome_ofInt : ∀ n, (ofInt n).isSome ↔ InHeader n
  int_ofInt : ∀ n v, ofInt n = some v → int v = some n

structure Incoming (B V : Type) where
  body : B
  headers : Dict String V
  contentType : Option String
  routingKey : String

/-- What the handler does when it is run: it returns, raises an `Exception`, raises what
`except Exception` lets pass, such as a cancellation, or never ends. -/
inductive HandlerRun
  | returns
  | raises
  | escapes
  | hangs
  deriving DecidableEq

inductive Operation (B V : Type)
  | ack
  | reject
  | publish (copy : Incoming B V)

inductive Ending
  | completed
  | raised
  | suspended
  deriving DecidableEq

/-- `handled` says that a registered handler completed. -/
structure Handling (B V : Type) where
  handled : Bool
  operations : List (Operation B V)
  ending : Ending

/-- The integers below this one in magnitude have a `float`; `float(n)` raises for the others. -/
def floatLimit : Int := 2 ^ 1024 - 2 ^ 970

/-- `min(2**retry, 10)`: a negative exponent makes `2**retry` a `float`, which
underflows to zero and for which `retry` must have a `float` itself. -/
def backoff (retry : Int) : Option Rat :=
  if 0 ≤ retry then some (min (2 ^ retry.toNat) 10)
  else if -floatLimit < retry then some (if retry < -1074 then 0 else 1 / 2 ^ retry.natAbs)
  else none

variable {B V E : Type} (w : Wire B V E)

/-- `int(headers.get("x-retry", 0))`. -/
def Incoming.retry (m : Incoming B V) : Option Int :=
  match m.headers.get? "x-retry" with
  | none => some 0
  | some v => w.int v

/-- The message that `_republish` builds, with the routing key it is published under; `none`
when the publication raises. -/
def Incoming.republished (m : Incoming B V) (retry : Int) : Option (Incoming B V) :=
  (w.ofInt retry).map fun value => { m with headers := m.headers.set "x-retry" value }

/-- The `except` branch of `_handle`. -/
def failed (limit : Int) (m : Incoming B V) (retry : Int) : Handling B V :=
  if retry + 1 ≥ limit then ⟨false, [.reject], .completed⟩
  else
    match backoff (retry + 1), m.republished w (retry + 1) with
    | some _, some copy => ⟨false, [.publish copy, .ack], .completed⟩
    | _, _ => ⟨false, [], .raised⟩

/-- `_handle`, with `limit` in the place of `MAX_RETRIES`; `int` is called outside the `try`. -/
def handle (c : Consumer) (limit : Int) (m : Incoming B V) (run : HandlerRun) : Handling B V :=
  match m.retry w with
  | none => ⟨false, [], .raised⟩
  | some retry =>
      match w.validate m.body with
      | none => failed w limit m retry
      | some e =>
          if w.eventType e ∈ c.eventTypes then
            match run with
            | .returns => ⟨true, [.ack], .completed⟩
            | .raises => failed w limit m retry
            | .escapes => ⟨false, [], .raised⟩
            | .hangs => ⟨false, [], .suspended⟩
          else ⟨false, [.ack], .completed⟩

/-- The other messages in the consumer's queue, and its dead-letter queue. -/
structure Queues (B V : Type) where
  ready : List (Incoming B V)
  dead : List (Incoming B V)

/-- Hand a message to the queues of the consumer that are bound to the key. -/
def Queues.deposit (c : Consumer) (d : Queues B V) (exchange key : String) (m : Incoming B V) :
    Queues B V where
  ready := d.ready ++ if c.queueName ∈ routed c.bindings exchange key then [m] else []
  dead := d.dead ++ if c.dlqName ∈ routed c.bindings exchange key then [m] else []

/-- An operation of a run of `_handle` on `m`. -/
def Queues.operate (c : Consumer) (m : Incoming B V) (d : Queues B V) : Operation B V → Queues B V
  | .ack => d
  | .reject => d.deposit c dlxName c.deadKey m
  | .publish copy => d.deposit c exchangeName copy.routingKey copy

def Operation.settles : Operation B V → Bool
  | .ack => true
  | .reject => true
  | .publish _ => false

/-- The body is an event whose handler `_handle` runs. -/
def Registered (c : Consumer) (m : Incoming B V) : Prop :=
  ∃ e, w.validate m.body = some e ∧ w.eventType e ∈ c.eventTypes

/-- The body is an event that no handler is registered for. -/
def Unregistered (c : Consumer) (m : Incoming B V) : Prop :=
  ∃ e, w.validate m.body = some e ∧ w.eventType e ∉ c.eventTypes

/-- The run of `_handle` on `m` completes, settles `m` once and leaves it handled,
without a handler, again in the queue or in the dead-letter queue. -/
structure Accounted (c : Consumer) (m : Incoming B V) (h : Handling B V) (d d' : Queues B V) :
    Prop where
  completes : h.ending = .completed
  once : h.operations.countP Operation.settles = 1
  outcome : h.handled = true ∨ (Unregistered w c m ∧ Operation.ack ∈ h.operations) ∨
    (∃ copy, copy.body = m.body ∧ copy.retry w = (m.retry w).map (· + 1) ∧
      d'.ready = d.ready ++ [copy]) ∨ d'.dead = d.dead ++ [m]

/-- The state of the queues after a run of `_handle`. -/
def Queues.after (c : Consumer) (m : Incoming B V) (h : Handling B V) (d : Queues B V) :
    Queues B V :=
  h.operations.foldl (Queues.operate c m) d

/-- The body does not decode, or the handler of its type raises an `Exception`. -/
def Failing (c : Consumer) (m : Incoming B V) (run : HandlerRun) : Prop :=
  w.validate m.body = none ∨ Registered w c m ∧ run = .raises

/-- `y` is `m` under another `x-retry`. -/
structure Incoming.CopyOf (m : Incoming B V) (retry : Int) (y : Incoming B V) : Prop where
  body : y.body = m.body
  contentType : y.contentType = m.contentType
  routingKey : y.routingKey = m.routingKey
  headers : ∀ name, name ≠ "x-retry" → y.headers.get? name = m.headers.get? name
  retry : y.retry w = some retry

theorem Incoming.copyOf_republished {m y : Incoming B V} {retry : Int}
    (h : m.republished w retry = some y) : m.CopyOf w retry y := by
  obtain ⟨value, hvalue, rfl⟩ := Option.map_eq_some_iff.mp h
  refine ⟨rfl, rfl, rfl, fun name hname => ?_, ?_⟩
  · simp [hname]
  · have hget : (m.headers.set "x-retry" value).get? "x-retry" = some value := by simp
    unfold Incoming.retry
    rw [hget]
    exact w.int_ofInt retry value hvalue

theorem Incoming.republished_isSome (m : Incoming B V) (retry : Int) :
    (m.republished w retry).isSome ↔ InHeader retry := by
  rw [Incoming.republished, Option.isSome_map]
  exact w.isSome_ofInt retry

theorem Incoming.CopyOf.trans {m x y : Incoming B V} {r s : Int} (hx : m.CopyOf w r x)
    (hy : x.CopyOf w s y) : m.CopyOf w s y :=
  ⟨hy.body.trans hx.body, hy.contentType.trans hx.contentType, hy.routingKey.trans hx.routingKey,
    fun name h => (hy.headers name h).trans (hx.headers name h), hy.retry⟩

theorem mem_routed {bindings : List Binding} {exchange key queue : String} :
    queue ∈ routed bindings exchange key ↔ ⟨exchange, queue, key⟩ ∈ bindings := by
  unfold routed
  constructor
  · intro h
    obtain ⟨b, hb, rfl⟩ := List.mem_map.mp h
    obtain ⟨hmem, hkey⟩ := List.mem_filter.mp hb
    obtain ⟨rfl, rfl⟩ : b.exchange = exchange ∧ b.key = key := by simpa using hkey
    exact hmem
  · intro h
    exact List.mem_map.mpr ⟨_, List.mem_filter.mpr ⟨h, by simp⟩, rfl⟩

theorem dlqName_ne (c : Consumer) : c.dlqName ≠ c.queueName := by
  intro h
  have hlen := congrArg String.length h
  simp [Consumer.dlqName, String.length_append] at hlen

theorem mem_routed_exchange (c : Consumer) (key queue : String) :
    queue ∈ routed c.bindings exchangeName key ↔ queue = c.queueName ∧ key ∈ c.eventTypes := by
  rw [mem_routed]
  simp [Consumer.bindings, exchangeName, dlxName, and_comm, eq_comm]

theorem mem_routed_dlx (c : Consumer) (key queue : String) :
    queue ∈ routed c.bindings dlxName key ↔ queue = c.dlqName ∧ key = c.deadKey := by
  rw [mem_routed]
  simp [Consumer.bindings, exchangeName, dlxName]

/-- A message on the shared exchange comes back exactly when its key is an event type
the consumer has a handler for. -/
theorem Queues.deposit_exchange (c : Consumer) (d : Queues B V) (key : String) (m : Incoming B V) :
    d.deposit c exchangeName key m =
      { d with ready := d.ready ++ if key ∈ c.eventTypes then [m] else [] } := by
  simp [Queues.deposit, mem_routed_exchange, dlqName_ne]

/-- A rejected message is in the dead-letter queue. -/
theorem Queues.deposit_dlx (c : Consumer) (d : Queues B V) (m : Incoming B V) :
    d.deposit c dlxName c.deadKey m = { d with dead := d.dead ++ [m] } := by
  simp [Queues.deposit, mem_routed_dlx, (dlqName_ne c).symm]

theorem floatLimit_pos : 0 < floatLimit :=
  Int.sub_pos.mpr (Int.pow_lt_pow_of_lt (by decide) (by decide))

theorem backoff_isSome (retry : Int) : (backoff retry).isSome ↔ -floatLimit < retry := by
  have hpos := floatLimit_pos
  by_cases hnonneg : 0 ≤ retry
  · have hlow : -floatLimit < retry := by omega
    simp [backoff, hnonneg, hlow]
  · simp [backoff, hnonneg]

theorem lt_floatLimit : 2 ^ 63 < floatLimit := by
  have hsplit : (2 : Int) ^ 1024 = 2 ^ 970 * 2 ^ 54 := Int.pow_add 2 970 54
  have hlow : (2 : Int) ^ 63 ≤ 2 ^ 970 :=
    Int.le_of_lt (Int.pow_lt_pow_of_lt (by decide) (by decide))
  unfold floatLimit
  rw [hsplit]
  generalize (2 : Int) ^ 970 = x at hlow ⊢
  omega

theorem backoff_of_inHeader {retry : Int} (h : InHeader retry) :
    ∃ seconds, backoff retry = some seconds := by
  have hlimit := lt_floatLimit
  have hlow := h.1
  exact Option.isSome_iff_exists.mp ((backoff_isSome retry).mpr (by omega))

/-- The `except` branch rejects at the limit; below it publishes the copy, or raises over an
`x-retry` that no header holds. -/
theorem failed_cases (limit : Int) (m : Incoming B V) (retry : Int) :
    (retry + 1 ≥ limit ∧ failed w limit m retry = ⟨false, [.reject], .completed⟩) ∨
    (retry + 1 < limit ∧ ¬ InHeader (retry + 1) ∧
      failed w limit m retry = ⟨false, [], .raised⟩) ∨
    (retry + 1 < limit ∧ InHeader (retry + 1) ∧ ∃ copy, m.republished w (retry + 1) = some copy ∧
      failed w limit m retry = ⟨false, [.publish copy, .ack], .completed⟩) := by
  unfold failed
  by_cases hlimit : retry + 1 ≥ limit
  · exact .inl ⟨hlimit, if_pos hlimit⟩
  · rw [if_neg hlimit]
    have hbelow : retry + 1 < limit := by omega
    by_cases hheader : InHeader (retry + 1)
    · obtain ⟨seconds, hseconds⟩ := backoff_of_inHeader hheader
      obtain ⟨copy, hcopy⟩ :=
        Option.isSome_iff_exists.mp ((m.republished_isSome w (retry + 1)).mpr hheader)
      exact .inr (.inr ⟨hbelow, hheader, copy, hcopy, by simp only [hseconds, hcopy]⟩)
    · have hnone : m.republished w (retry + 1) = none := by
        rw [← Option.not_isSome_iff_eq_none, m.republished_isSome w]
        exact hheader
      refine .inr (.inl ⟨hbelow, hheader, ?_⟩)
      rw [hnone]
      cases backoff (retry + 1) <;> rfl

section

variable {w} {c : Consumer} {m : Incoming B V} {run : HandlerRun} {retry : Int}

theorem not_registered (h : Unregistered w c m) : ¬ Registered w c m := by
  obtain ⟨e, he, htype⟩ := h
  rintro ⟨e', he', htype'⟩
  exact htype (Option.some.inj (he'.symm.trans he) ▸ htype')

theorem not_registered_of_invalid (h : w.validate m.body = none) : ¬ Registered w c m := by
  rintro ⟨e, he, -⟩
  exact absurd (h.symm.trans he) (by simp)

/-- An event is handled, or acknowledged without a handler; other bodies fail. -/
theorem body_cases (w : Wire B V E) (c : Consumer) (m : Incoming B V) :
    Registered w c m ∨ Unregistered w c m ∨ w.validate m.body = none := by
  cases hbody : w.validate m.body with
  | none => exact .inr (.inr rfl)
  | some e =>
    by_cases htype : w.eventType e ∈ c.eventTypes
    · exact .inl ⟨e, hbody, htype⟩
    · exact .inr (.inl ⟨e, hbody, htype⟩)

theorem failing_of_registered (h : Registered w c m) : Failing w c m run ↔ run = .raises := by
  obtain ⟨e, he, -⟩ := id h
  simp [Failing, he, h]

theorem not_failing (h : Unregistered w c m) : ¬ Failing w c m run := by
  rintro (hnone | ⟨hreg, -⟩)
  · obtain ⟨e, he, -⟩ := h
    exact absurd (hnone.symm.trans he) (by simp)
  · exact not_registered h hreg

theorem handle_unreadable {limit : Int} (h : m.retry w = none) :
    handle w c limit m run = ⟨false, [], .raised⟩ := by
  simp [handle, h]

/-- A message without a handler is acknowledged. -/
theorem handle_unregistered {limit : Int} (hretry : m.retry w = some retry)
    (h : Unregistered w c m) : handle w c limit m run = ⟨false, [.ack], .completed⟩ := by
  obtain ⟨e, he, htype⟩ := h
  simp [handle, hretry, he, htype]

theorem handle_invalid {limit : Int} (hretry : m.retry w = some retry)
    (h : w.validate m.body = none) : handle w c limit m run = failed w limit m retry := by
  simp [handle, hretry, h]

theorem handle_registered {limit : Int} (hretry : m.retry w = some retry)
    (h : Registered w c m) :
    handle w c limit m run =
      match run with
      | .returns => ⟨true, [.ack], .completed⟩
      | .raises => failed w limit m retry
      | .escapes => ⟨false, [], .raised⟩
      | .hangs => ⟨false, [], .suspended⟩ := by
  obtain ⟨e, he, htype⟩ := h
  simp [handle, hretry, he, htype]

end

/-- The bodies and headers of `Message`. -/
def eventWire : Wire Body HeaderValue Event where
  validate
    | .event e => some e
    | .malformed _ => none
  eventType := Event.eventType
  int
    | .int n => some n
    | .text s => IntText.int s
  ofInt n := if InHeader n then some (.int n) else none
  isSome_ofInt n := by
    split_ifs with h
    · simp [h]
    · simp [h]
  int_ofInt n v h := by
    split_ifs at h
    cases h
    rfl

def Message.incoming (m : Message) : Incoming Body HeaderValue :=
  ⟨m.body, m.headers, m.contentType, m.routingKey⟩

def Settlement.operations : Settlement → List (Operation Body HeaderValue)
  | .acked => [.ack]
  | .rejected => [.reject]
  | .republished copy => [.publish copy.incoming, .ack]

theorem Message.retry_incoming (m : Message) : m.incoming.retry eventWire = m.retry := by
  have hheaders : m.incoming.headers = m.headers := rfl
  unfold Incoming.retry Message.retry
  rw [hheaders]
  cases m.headers.get? "x-retry" with
  | none => rfl
  | some v => cases v <;> rfl

theorem Message.republished_incoming {m : Message} {retry : Int} {copy : Incoming Body HeaderValue}
    (h : m.incoming.republished eventWire retry = some copy) :
    copy = (m.republished retry).incoming := by
  obtain ⟨value, hvalue, rfl⟩ := Option.map_eq_some_iff.mp h
  simp only [eventWire] at hvalue
  split_ifs at hvalue
  cases hvalue
  rfl

/-- While the copy can be published, `settle` says which operations a run issues. -/
theorem handle_settle (c : Consumer) (limit : Int) (m : Message) (ok : Bool)
    (hheader : ∀ retry, m.retry = some retry → InHeader (retry + 1)) :
    (handle eventWire c limit m.incoming (if ok then .returns else .raises)).operations =
      ((settle limit (fun t => t ∈ c.eventTypes) m ok).map Settlement.operations).getD [] := by
  cases hretry : m.retry with
  | none => simp [handle, settle, m.retry_incoming, hretry]
  | some retry =>
    have hfailed : (failed eventWire limit m.incoming retry).operations =
        Settlement.operations (if retry + 1 ≥ limit then .rejected
          else .republished (m.republished (retry + 1))) := by
      rcases failed_cases eventWire limit m.incoming retry with ⟨hlimit, heq⟩ |
        ⟨-, hnone, -⟩ | ⟨hbelow, -, copy, hcopy, heq⟩
      · rw [heq, if_pos hlimit]
        rfl
      · exact absurd (hheader retry hretry) hnone
      · rw [heq, if_neg (by omega), Message.republished_incoming hcopy]
        rfl
    have hread := m.retry_incoming.trans hretry
    cases hbody : m.body with
    | malformed bytes =>
      have hnone : eventWire.validate m.incoming.body = none := congrArg eventWire.validate hbody
      rw [handle_invalid hread hnone, hfailed]
      simp [settle, hretry, hbody]
    | event e =>
      have hsome : eventWire.validate m.incoming.body = some e := congrArg eventWire.validate hbody
      by_cases htype : e.eventType ∈ c.eventTypes
      · rw [handle_registered hread ⟨e, hsome, htype⟩]
        cases ok with
        | true => simp [settle, hretry, hbody, htype, Settlement.operations]
        | false => simp [settle, hretry, hbody, htype, hfailed]
      · rw [handle_unregistered hread ⟨e, hsome, htype⟩]
        simp [settle, hretry, hbody, htype, Settlement.operations]

section

variable {w} {c : Consumer} {m : Incoming B V} {run : HandlerRun} {d : Queues B V} {retry : Int}

theorem after_rejected : d.after c m ⟨false, [.reject], .completed⟩ =
    { d with dead := d.dead ++ [m] } := d.deposit_dlx c m

theorem after_republished (copy : Incoming B V) :
    d.after c m ⟨false, [.publish copy, .ack], .completed⟩ =
      { d with ready := d.ready ++ if copy.routingKey ∈ c.eventTypes then [copy] else [] } :=
  d.deposit_exchange c copy.routingKey copy

theorem accounted_acked (handled : Bool) (h : handled = true ∨ Unregistered w c m) :
    Accounted w c m ⟨handled, [.ack], .completed⟩ d (d.after c m ⟨handled, [.ack], .completed⟩) :=
  ⟨rfl, rfl, h.imp_right fun hun => .inl ⟨hun, List.mem_singleton.mpr rfl⟩⟩

theorem not_accounted {h : Handling B V} {d' : Queues B V} (hending : h.ending ≠ .completed) :
    ¬ Accounted w c m h d d' := fun hacc => hending hacc.completes

/-- A failure below the limit meets a routing key that is bound to the queue, and an `x-retry`
whose successor a header holds. -/
def Returnable (c : Consumer) (m : Incoming B V) (retry : Int) : Prop :=
  retry + 1 < maxRetries → m.routingKey ∈ c.eventTypes ∧ -2 ^ 63 ≤ retry + 1

theorem accounted_failed (hretry : m.retry w = some retry) (hun : ¬ Unregistered w c m) :
    Accounted w c m (failed w maxRetries m retry) d (d.after c m (failed w maxRetries m retry)) ↔
      Returnable c m retry := by
  unfold Returnable
  rcases failed_cases w maxRetries m retry with ⟨hlimit, heq⟩ | ⟨hbelow, hnone, heq⟩ |
    ⟨hbelow, hheader, copy, hcopy, heq⟩
  · rw [heq, after_rejected]
    refine iff_of_true ⟨rfl, rfl, .inr (.inr (.inr rfl))⟩ fun hlow => ?_
    omega
  · rw [heq]
    refine iff_of_false (not_accounted (by simp)) fun h => hnone ⟨(h hbelow).2, ?_⟩
    have hthree : maxRetries = 3 := rfl
    omega
  · have hcopyOf := Incoming.copyOf_republished w hcopy
    rw [heq, after_republished, hcopyOf.routingKey]
    constructor
    · rintro ⟨-, -, hhandled | ⟨hun', -⟩ | ⟨y, -, -, hready⟩ | hdead⟩ -
      · cases hhandled
      · exact absurd hun' hun
      · by_cases hkey : m.routingKey ∈ c.eventTypes
        · exact ⟨hkey, hheader.1⟩
        · have hlen := congrArg List.length hready
          simp [hkey] at hlen
      · have hlen := congrArg List.length hdead
        simp at hlen
    · intro h
      have hkey := (h hbelow).1
      refine ⟨rfl, rfl, .inr (.inr (.inl ⟨copy, hcopyOf.body, ?_, ?_⟩))⟩
      · rw [hcopyOf.retry, hretry, Option.map_some]
      · simp [hkey]

theorem accounted_registered (hretry : m.retry w = some retry) (h : Registered w c m) :
    Accounted w c m (handle w c maxRetries m run) d (d.after c m (handle w c maxRetries m run)) ↔
      run = .returns ∨ run = .raises ∧ Returnable c m retry := by
  rw [handle_registered hretry h]
  cases run with
  | returns => exact iff_of_true (accounted_acked true (.inl rfl)) (.inl rfl)
  | raises =>
    have hfailed := accounted_failed (d := d) hretry fun hun => not_registered hun h
    simpa using hfailed
  | escapes => exact iff_of_false (not_accounted (by simp)) (by simp)
  | hangs => exact iff_of_false (not_accounted (by simp)) (by simp)

end

/-- A run of `_handle` accounts for its message exactly when it can read `x-retry`, the
handler neither hangs nor raises past `except Exception`, and a failure below the limit
finds its routing key bound to the queue and a header that holds the next `x-retry`. -/
theorem accounted_iff (c : Consumer) (m : Incoming B V) (run : HandlerRun) (d : Queues B V) :
    Accounted w c m (handle w c maxRetries m run) d (d.after c m (handle w c maxRetries m run)) ↔
      ∃ retry, m.retry w = some retry ∧
        (Registered w c m → run = .returns ∨ run = .raises) ∧
        (Failing w c m run → retry + 1 < maxRetries →
          m.routingKey ∈ c.eventTypes ∧ -2 ^ 63 ≤ retry + 1) := by
  cases hretry : m.retry w with
  | none =>
    rw [handle_unreadable hretry]
    exact iff_of_false (not_accounted (by simp)) (by simp)
  | some retry =>
    simp only [Option.some.injEq, exists_eq_left']
    rcases body_cases w c m with hreg | hun | hnone
    · rw [accounted_registered hretry hreg, failing_of_registered hreg]
      simp only [hreg, true_imp_iff, Returnable]
      grind
    · rw [handle_unregistered hretry hun]
      refine iff_of_true (accounted_acked false (.inr hun)) ⟨fun hreg => ?_, fun hfail => ?_⟩
      · exact absurd hreg (not_registered hun)
      · exact absurd hfail (not_failing hun)
    · have hun : ¬ Unregistered w c m := by
        rintro ⟨e, he, -⟩
        exact absurd (hnone.symm.trans he) (by simp)
      rw [handle_invalid hretry hnone, accounted_failed hretry hun]
      simp [not_registered_of_invalid hnone, Failing, hnone, Returnable]

def orderEvents : Consumer :=
  ⟨"order.events", ["StockReserved", "StockUnavailable", "ShipmentCreated"]⟩

/-- A dead-lettered event, put back into the queue under the key it was dead-lettered with. -/
def movedBack : Incoming Body HeaderValue :=
  ⟨.event reservedOrder, Dict.empty, some "application/json", "order.events.dead"⟩

/-- The copy of it for the second attempt. -/
def movedBackCopy : Incoming Body HeaderValue :=
  { movedBack with headers := movedBack.headers.set "x-retry" (.int 1) }

/-- The copy is published under a key that no queue is bound to, and the message is
acknowledged: nothing of it is left. -/
theorem movedBack_dropped :
    (handle eventWire orderEvents maxRetries movedBack .raises).operations =
        [.publish movedBackCopy, .ack] ∧
      (Queues.after orderEvents movedBack
        (handle eventWire orderEvents maxRetries movedBack .raises) ⟨[], []⟩) = ⟨[], []⟩ ∧
      ¬ Accounted eventWire orderEvents movedBack
        (handle eventWire orderEvents maxRetries movedBack .raises) ⟨[], []⟩ ⟨[], []⟩ := by
  have hrun : handle eventWire orderEvents maxRetries movedBack .raises =
      ⟨false, [.publish movedBackCopy, .ack], .completed⟩ := rfl
  rw [hrun]
  refine ⟨rfl, ?_, ?_⟩
  · have hkey : movedBackCopy.routingKey ∉ orderEvents.eventTypes := by decide
    rw [after_republished, if_neg hkey]
    rfl
  · rintro ⟨-, -, hhandled | ⟨⟨e, he, htype⟩, -⟩ | ⟨copy, -, -, hready⟩ | hdead⟩
    · cases hhandled
    · cases he
      exact htype (by decide)
    · cases hready
    · cases hdead

end OrderMesh
