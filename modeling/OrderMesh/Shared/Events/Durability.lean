import OrderMesh.Library.Transition
import OrderMesh.Shared.Events.Consumer

namespace OrderMesh

open Transition

def exchangeName : String := "logistics.events"

def dlxName : String := "logistics.dlx"

/-- A consumer, with the keys of its `handlers`. -/
structure Consumer where
  queueName : String
  eventTypes : List String

structure Binding where
  exchange : String
  queue : String
  key : String

def Consumer.dlqName (c : Consumer) : String := c.queueName ++ ".dlq"

/-- The `x-dead-letter-routing-key` of the queue. -/
def Consumer.deadKey (c : Consumer) : String := c.queueName ++ ".dead"

/-- The bindings that `start` declares. -/
def Consumer.bindings (c : Consumer) : List Binding :=
  ⟨dlxName, c.dlqName, c.deadKey⟩ :: c.eventTypes.map fun t => ⟨exchangeName, c.queueName, t⟩

/-- The queues an exchange hands a message to; the keys have no wildcards. -/
def routed (bindings : List Binding) (exchange key : String) : List String :=
  (bindings.filter fun b => b.exchange = exchange ∧ b.key = key).map Binding.queue

/-- A message with the number of the event it is a copy of. -/
structure Copy where
  event : Nat
  message : Message

/-- How far a run of `_handle` has come: about to acknowledge, in the `except` branch, or about to
acknowledge after the re-publication. -/
inductive HandlePhase
  | started
  | acking
  | failing
  | republished
  | returned
  deriving DecidableEq

/-- A delivery; `held` says that the broker still holds the message for it. -/
structure Delivered where
  copy : Copy
  held : Bool
  phase : HandlePhase

/-- Every event published, in order, where copies of them are, and the events whose handler has
completed. -/
structure QueueState where
  events : List Event
  ready : List Copy
  deliveries : List Delivered
  dead : List Copy
  handled : List Nat

/-- In `shared` another consumer re-publishes a copy to the shared exchange. -/
inductive QueueAct
  | publish (e : Event)
  | shared (n : Nat) (retry : Int)
  | deliver (i : Nat)
  | handler (i : Nat) (ok : Bool)
  | operation (i : Nat) (reply : Reply)
  | connectionLost
  | crash

/-- Hand a copy to the queues bound to the key. -/
def QueueState.deposit (d : QueueState) (c : Consumer) (exchange key : String) (copy : Copy) :
    QueueState :=
  let queues := routed c.bindings exchange key
  { d with
    ready := d.ready ++ if c.queueName ∈ queues then [copy] else []
    dead := d.dead ++ if c.dlqName ∈ queues then [copy] else [] }

def QueueState.setDelivery (d : QueueState) (i : Nat) (t : Delivered) : QueueState :=
  { d with deliveries := d.deliveries.set i t }

/-- `message.ack()`, with the phase after it when it returns and when it raises. -/
def ack (d : QueueState) (i : Nat) (t : Delivered) (returns raises : HandlePhase) :
    Reply → Option QueueState
  | .ok =>
      if t.held then some (d.setDelivery i { t with held := false, phase := returns }) else none
  | .refused => some (d.setDelivery i { t with phase := raises })
  | .unknown =>
      if t.held then some (d.setDelivery i { t with held := false, phase := raises }) else none

/-- `message.reject(requeue=False)`: the broker dead-letters the message. -/
def reject (c : Consumer) (d : QueueState) (i : Nat) (t : Delivered) (reply : Reply) :
    Option QueueState :=
  if reply = .refused then some (d.setDelivery i { t with phase := .returned })
  else if t.held then
    some ((d.setDelivery i { t with held := false, phase := .returned }).deposit c dlxName c.deadKey
      t.copy)
  else none

/-- The publication in `_republish`, under the routing key of the message. -/
def republish (c : Consumer) (d : QueueState) (i : Nat) (t : Delivered) (retry : Int)
    (reply : Reply) : QueueState :=
  let after := d.setDelivery i { t with phase := if reply = .ok then .republished else .returned }
  if reply = .refused then after
  else after.deposit c exchangeName t.copy.message.routingKey
    { t.copy with message := t.copy.message.republished (retry + 1) }

/-- The handler runs and returns or raises; an unknown event has none. -/
def runHandler (c : Consumer) (d : QueueState) (i : Nat) (t : Delivered) (ok : Bool) : QueueState :=
  match t.copy.message.retry, t.copy.message.body with
  | none, _ => d.setDelivery i { t with phase := .returned }
  | some _, .malformed _ => d.setDelivery i { t with phase := .failing }
  | some _, .event e =>
      if e.eventType ∈ c.eventTypes then
        if ok then
          { d.setDelivery i { t with phase := .acking } with
            handled := d.handled ++ [t.copy.event] }
        else d.setDelivery i { t with phase := .failing }
      else d.setDelivery i { t with phase := .acking }

def queueStep (c : Consumer) (d : QueueState) : QueueAct → Option QueueState
  | .publish e =>
      some ({ d with events := d.events ++ [e] }.deposit c exchangeName e.eventType
        ⟨d.events.length, publish e⟩)
  | .shared n retry =>
      (d.events[n]?).map fun e =>
        d.deposit c exchangeName e.eventType ⟨n, (publish e).republished retry⟩
  | .deliver i =>
      (d.ready[i]?).map fun copy =>
        { d with
          ready := d.ready.eraseIdx i
          deliveries := d.deliveries ++ [⟨copy, true, .started⟩] }
  | .handler i ok =>
      match d.deliveries[i]? with
      | none => none
      | some t => if t.phase = .started then some (runHandler c d i t ok) else none
  | .operation i reply =>
      match d.deliveries[i]? with
      | none => none
      | some t =>
          match t.phase with
          | .acking => ack d i t .returned .failing reply
          | .republished => ack d i t .returned .returned reply
          | .failing =>
              match t.copy.message.retry with
              | none => none
              | some retry =>
                  if retry + 1 ≥ maxRetries then reject c d i t reply
                  else some (republish c d i t retry reply)
          | _ => none
  | .connectionLost =>
      some { d with
        ready := d.ready ++ (d.deliveries.filter Delivered.held).map Delivered.copy
        deliveries := d.deliveries.map fun t => { t with held := false } }
  | .crash =>
      some { d with
        ready := d.ready ++ (d.deliveries.filter Delivered.held).map Delivered.copy
        deliveries := [] }

/-- `start` has returned and nothing was published yet. -/
def QueueState.start : QueueState := ⟨[], [], [], [], []⟩

/-- A copy of the event is ready or unacknowledged. -/
def QueueState.Queued (d : QueueState) (n : Nat) : Prop :=
  (∃ copy ∈ d.ready, copy.event = n) ∨ ∃ t ∈ d.deliveries, t.held = true ∧ t.copy.event = n

def QueueState.DeadLettered (d : QueueState) (n : Nat) : Prop := ∃ copy ∈ d.dead, copy.event = n

theorem mem_routed_queue (c : Consumer) {t : String} (h : t ∈ c.eventTypes) :
    c.queueName ∈ routed c.bindings exchangeName t := by
  refine List.mem_map.mpr ⟨⟨exchangeName, c.queueName, t⟩, ?_, rfl⟩
  exact List.mem_filter.mpr ⟨List.mem_cons_of_mem _ (List.mem_map_of_mem h), by simp⟩

theorem mem_routed_dlq (c : Consumer) : c.dlqName ∈ routed c.bindings dlxName c.deadKey := by
  refine List.mem_map.mpr ⟨⟨dlxName, c.dlqName, c.deadKey⟩, ?_, rfl⟩
  exact List.mem_filter.mpr ⟨List.mem_cons_self, by simp⟩

@[simp] theorem QueueState.events_deposit (d : QueueState) (c : Consumer) (exchange key : String)
    (copy : Copy) : (d.deposit c exchange key copy).events = d.events := rfl

/-- A copy carries its event, under the event's routing key and with a readable retry count. -/
structure Copy.Of (events : List Event) (copy : Copy) (e : Event) : Prop where
  published : events[copy.event]? = some e
  body : copy.message.body = .event e
  retry : copy.message.retry.isSome
  routingKey : copy.message.routingKey = e.eventType

/-- A copy that no acknowledgement is about to remove without another one left. -/
def QueueState.Strong (d : QueueState) (n : Nat) : Prop :=
  (∃ copy ∈ d.ready, copy.event = n) ∨
    (∃ t ∈ d.deliveries, (t.held = true ∧ t.phase ≠ .republished) ∧ t.copy.event = n) ∨
      d.DeadLettered n

structure QueueState.Kept (c : Consumer) (d : QueueState) : Prop where
  ready : ∀ copy ∈ d.ready, ∃ e, copy.Of d.events e
  delivered : ∀ t ∈ d.deliveries, ∃ e, t.copy.Of d.events e
  acking : ∀ t ∈ d.deliveries, t.phase = .acking → ∀ e, t.copy.Of d.events e →
    e.eventType ∈ c.eventTypes → t.copy.event ∈ d.handled
  strong : ∀ n e, d.events[n]? = some e → e.eventType ∈ c.eventTypes → n ∈ d.handled ∨ d.Strong n

theorem Copy.Of.unique {events : List Event} {copy : Copy} {e e' : Event} (h : copy.Of events e)
    (h' : copy.Of events e') : e = e' := Option.some.inj (h.published.symm.trans h'.published)

theorem Copy.Of.append {events : List Event} {copy : Copy} {e : Event} (h : copy.Of events e)
    (more : List Event) : copy.Of (events ++ more) e := by
  obtain ⟨hlt, -⟩ := List.getElem?_eq_some_iff.mp h.published
  exact ⟨(List.getElem?_append_left hlt).trans h.published, h.body, h.retry, h.routingKey⟩

theorem kept_start (c : Consumer) : QueueState.start.Kept c where
  ready := by simp [QueueState.start]
  delivered := by simp [QueueState.start]
  acking := by simp [QueueState.start]
  strong := by simp [QueueState.start]

section Kept

variable {c : Consumer} {d : QueueState}

theorem QueueState.Strong.deposit {n : Nat} (h : d.Strong n) (exchange key : String) (copy : Copy) :
    (d.deposit c exchange key copy).Strong n := by
  rcases h with ⟨old, hold, hn⟩ | hdelivered | ⟨old, hold, hn⟩
  · exact .inl ⟨old, List.mem_append_left _ hold, hn⟩
  · exact .inr (.inl hdelivered)
  · exact .inr (.inr ⟨old, List.mem_append_left _ hold, hn⟩)

/-- A new copy of a published event harms nothing. -/
theorem QueueState.Kept.deposit (h : d.Kept c) {copy : Copy} {e : Event}
    (hcopy : copy.Of d.events e) (exchange key : String) :
    (d.deposit c exchange key copy).Kept c where
  ready := by
    intro old hold
    rcases List.mem_append.mp hold with hold | hnew
    · exact h.ready old hold
    · split_ifs at hnew
      · exact ⟨e, List.mem_singleton.mp hnew ▸ hcopy⟩
      · cases hnew
  delivered := h.delivered
  acking := h.acking
  strong n e hn ht := (h.strong n e hn ht).imp_right fun hs => hs.deposit exchange key copy

/-- The delivery that moves keeps its copy, or the event does not need it. -/
theorem QueueState.Kept.setDelivery (h : d.Kept c) {i : Nat} {t : Delivered}
    (ht : d.deliveries[i]? = some t) {held : Bool} {phase : HandlePhase}
    (hacking : phase = .acking → ∀ e, t.copy.Of d.events e → e.eventType ∈ c.eventTypes →
      t.copy.event ∈ d.handled)
    (hkeep : t.held = true → t.phase ≠ .republished →
      (held = true ∧ phase ≠ .republished) ∨ (∃ copy ∈ d.ready, copy.event = t.copy.event) ∨
        d.DeadLettered t.copy.event ∨
        ∀ e, t.copy.Of d.events e → e.eventType ∈ c.eventTypes → t.copy.event ∈ d.handled) :
    (d.setDelivery i ⟨t.copy, held, phase⟩).Kept c where
  ready := h.ready
  delivered := by
    intro u hu
    rcases List.mem_or_eq_of_mem_set hu with hu | rfl
    · exact h.delivered u hu
    · exact h.delivered t (List.mem_of_getElem? ht)
  acking := by
    intro u hu hphase
    rcases List.mem_or_eq_of_mem_set hu with hu | rfl
    · exact h.acking u hu hphase
    · exact hacking hphase
  strong := by
    intro n e hn htype
    rcases h.strong n e hn htype with hhandled | hready | ⟨u, hu, hstrong, rfl⟩ | hdead
    · exact .inl hhandled
    · exact .inr (.inl hready)
    · obtain ⟨j, hj⟩ := List.mem_iff_getElem?.mp hu
      by_cases hij : i = j
      · subst hij
        cases Option.some.inj (ht.symm.trans hj)
        obtain ⟨e', hof⟩ := h.delivered t hu
        have he : e' = e := Option.some.inj (hof.published.symm.trans hn)
        have hlt := (List.getElem?_eq_some_iff.mp ht).1
        rcases hkeep hstrong.1 hstrong.2 with hself | hready | hdead | hhandled
        · exact .inr (.inr (.inl ⟨_, List.mem_set hlt _, hself, rfl⟩))
        · exact .inr (.inl hready)
        · exact .inr (.inr (.inr hdead))
        · exact .inl (hhandled e (he ▸ hof) htype)
      · refine .inr (.inr (.inl ⟨u, ?_, hstrong, rfl⟩))
        exact List.mem_of_getElem? ((List.getElem?_set_ne hij).trans hj)
    · exact .inr (.inr (.inr hdead))

theorem QueueState.Kept.handled (h : d.Kept c) (n : Nat) :
    { d with handled := d.handled ++ [n] }.Kept c where
  ready := h.ready
  delivered := h.delivered
  acking t ht hphase e he htype := List.mem_append_left _ (h.acking t ht hphase e he htype)
  strong k e hk htype := (h.strong k e hk htype).imp_left (List.mem_append_left _)

/-- An acknowledgement only removes the copy of an event that is handled or has another copy. -/
theorem kept_ack (h : d.Kept c) {i : Nat} {t : Delivered} (ht : d.deliveries[i]? = some t)
    {returns raises : HandlePhase} (hreturns : returns = .returned)
    (hraises : raises = .failing ∨ raises = .returned)
    (hphase : t.phase = .acking ∨ t.phase = .republished) {reply : Reply} {d' : QueueState}
    (hs : ack d i t returns raises reply = some d') : d'.Kept c := by
  have hmem := List.mem_of_getElem? ht
  have hsafe : t.phase ≠ .republished → ∀ e, t.copy.Of d.events e → e.eventType ∈ c.eventTypes →
      t.copy.event ∈ d.handled :=
    fun hne => h.acking t hmem (hphase.resolve_right hne)
  have hnot : raises ≠ .acking ∧ raises ≠ .republished := by
    rcases hraises with rfl | rfl <;> simp
  cases reply with
  | ok =>
    simp only [ack] at hs
    split_ifs at hs
    cases hs
    subst hreturns
    exact h.setDelivery ht (fun hp => by cases hp) fun _ hne => .inr (.inr (.inr (hsafe hne)))
  | refused =>
    cases hs
    exact h.setDelivery ht (fun hp => absurd hp hnot.1) fun hheld _ => .inl ⟨hheld, hnot.2⟩
  | unknown =>
    simp only [ack] at hs
    split_ifs at hs
    cases hs
    exact h.setDelivery ht (fun hp => absurd hp hnot.1) fun _ hne => .inr (.inr (.inr (hsafe hne)))

/-- A rejected message is in the dead-letter queue before it leaves this one. -/
theorem kept_reject (h : d.Kept c) {i : Nat} {t : Delivered} (ht : d.deliveries[i]? = some t)
    {reply : Reply} {d' : QueueState} (hs : reject c d i t reply = some d') : d'.Kept c := by
  unfold reject at hs
  obtain ⟨e, hof⟩ := h.delivered t (List.mem_of_getElem? ht)
  split_ifs at hs with hrefused hheld
  · cases hs
    exact h.setDelivery ht (fun hp => by cases hp) fun hheld _ => .inl ⟨hheld, by simp⟩
  · cases hs
    refine (h.deposit hof dlxName c.deadKey).setDelivery ht (fun hp => by cases hp) fun _ _ => ?_
    refine .inr (.inr (.inl ⟨t.copy, ?_, rfl⟩))
    exact List.mem_append_right _ (by simp [mem_routed_dlq])

/-- A re-published message is back in the queue before it can be acknowledged. -/
theorem kept_republish (h : d.Kept c) {i : Nat} {t : Delivered} (ht : d.deliveries[i]? = some t)
    (retry : Int) (reply : Reply) : (republish c d i t retry reply).Kept c := by
  obtain ⟨e, hof⟩ := h.delivered t (List.mem_of_getElem? ht)
  unfold republish
  dsimp only
  by_cases hrefused : reply = .refused
  · rw [if_pos hrefused, if_neg (by simp [hrefused])]
    exact h.setDelivery ht (fun hp => by cases hp) fun hheld _ => .inl ⟨hheld, by simp⟩
  · rw [if_neg hrefused]
    have hcopy : Copy.Of d.events
        { t.copy with message := t.copy.message.republished (retry + 1) } e :=
      ⟨hof.published, hof.body, by simp, hof.routingKey⟩
    have hphase : (if reply = .ok then HandlePhase.republished else .returned) ≠ .acking := by
      split_ifs <;> simp
    refine (h.deposit hcopy exchangeName t.copy.message.routingKey).setDelivery ht
      (fun hp => absurd hp hphase) fun hheld hne => ?_
    by_cases htype : e.eventType ∈ c.eventTypes
    · refine .inr (.inl ⟨{ t.copy with message := t.copy.message.republished (retry + 1) },
        List.mem_append_right _ ?_, rfl⟩)
      rw [hof.routingKey, if_pos (mem_routed_queue c htype)]
      exact List.mem_singleton.mpr rfl
    · exact .inr (.inr (.inr fun e' he' htype' => absurd (hof.unique he' ▸ htype') htype))

theorem kept_runHandler (h : d.Kept c) {i : Nat} {t : Delivered} (ht : d.deliveries[i]? = some t)
    (ok : Bool) : (runHandler c d i t ok).Kept c := by
  obtain ⟨e, hof⟩ := h.delivered t (List.mem_of_getElem? ht)
  obtain ⟨retry, hretry⟩ := Option.isSome_iff_exists.mp hof.retry
  unfold runHandler
  rw [hretry, hof.body]
  dsimp only
  have hfailing : (d.setDelivery i { t with phase := .failing }).Kept c :=
    h.setDelivery ht (fun hp => by cases hp) fun hheld _ => .inl ⟨hheld, by simp⟩
  by_cases htype : e.eventType ∈ c.eventTypes
  · rw [if_pos htype]
    cases ok with
    | true =>
      have hhandled : t.copy.event ∈ d.handled ++ [t.copy.event] := by simp
      exact (h.handled t.copy.event).setDelivery ht (fun _ _ _ _ => hhandled)
        fun hheld _ => .inl ⟨hheld, by simp⟩
    | false => exact hfailing
  · rw [if_neg htype]
    exact h.setDelivery ht (fun _ e' he' htype' => absurd (hof.unique he' ▸ htype') htype)
      fun hheld _ => .inl ⟨hheld, by simp⟩

/-- Whatever the broker held for a delivery is ready again. -/
theorem kept_requeued (h : d.Kept c) {deliveries : List Delivered}
    (hsub : ∀ t ∈ deliveries,
      t.held = false ∧ ∃ u ∈ d.deliveries, u.copy = t.copy ∧ u.phase = t.phase) :
    QueueState.Kept c { d with
      ready := d.ready ++ (d.deliveries.filter Delivered.held).map Delivered.copy
      deliveries := deliveries } where
  ready := by
    intro copy hcopy
    rcases List.mem_append.mp hcopy with hold | hnew
    · exact h.ready copy hold
    · obtain ⟨t, ht, rfl⟩ := List.mem_map.mp hnew
      exact h.delivered t (List.mem_filter.mp ht).1
  delivered := by
    intro t ht
    obtain ⟨-, u, hu, hcopy, -⟩ := hsub t ht
    exact hcopy ▸ h.delivered u hu
  acking := by
    intro t ht hphase
    obtain ⟨-, u, hu, hcopy, hsame⟩ := hsub t ht
    exact hcopy ▸ h.acking u hu (hsame.trans hphase)
  strong := by
    intro n e hn htype
    refine (h.strong n e hn htype).imp_right fun hs => ?_
    rcases hs with ⟨copy, hcopy, rfl⟩ | ⟨t, ht, ⟨hheld, -⟩, rfl⟩ | hdead
    · exact .inl ⟨copy, List.mem_append_left _ hcopy, rfl⟩
    · have hmem := List.mem_map_of_mem (f := Delivered.copy) (List.mem_filter.mpr ⟨ht, hheld⟩)
      exact .inl ⟨t.copy, List.mem_append_right _ hmem, rfl⟩
    · exact .inr (.inr hdead)

theorem kept_publish (h : d.Kept c) (e : Event) :
    QueueState.Kept c (QueueState.deposit { d with events := d.events ++ [e] } c exchangeName
      e.eventType ⟨d.events.length, publish e⟩) where
  ready := by
    intro copy hcopy
    rcases List.mem_append.mp hcopy with hold | hnew
    · exact (h.ready copy hold).imp fun _ hof => hof.append [e]
    · split_ifs at hnew
      · rw [List.mem_singleton.mp hnew]
        exact ⟨e, List.getElem?_concat_length, rfl, by simp [retry_publish], rfl⟩
      · cases hnew
  delivered t ht := (h.delivered t ht).imp fun _ hof => hof.append [e]
  acking := by
    intro t ht hphase e' he' htype
    obtain ⟨e'', hof⟩ := h.delivered t ht
    exact h.acking t ht hphase e'' hof ((hof.append [e]).unique he' ▸ htype)
  strong := by
    intro n e' hn htype
    by_cases hlt : n < d.events.length
    · have hold : d.events[n]? = some e' := (List.getElem?_append_left hlt).symm.trans hn
      exact (h.strong n e' hold htype).imp_right fun hs => hs.deposit exchangeName _ _
    · rw [QueueState.events_deposit] at hn
      obtain ⟨hle, hget⟩ := List.getElem?_eq_some_iff.mp hn
      have hlen : n = d.events.length := by
        rw [List.length_append, List.length_singleton] at hle
        omega
      subst hlen
      have heq : e = e' := by simpa using hget
      refine .inr (.inl ⟨⟨d.events.length, publish e⟩, List.mem_append_right _ ?_, rfl⟩)
      rw [if_pos (mem_routed_queue c (heq ▸ htype))]
      exact List.mem_singleton.mpr rfl

theorem kept_deliver (h : d.Kept c) {i : Nat} {copy : Copy} (hi : d.ready[i]? = some copy) :
    QueueState.Kept c { d with
      ready := d.ready.eraseIdx i
      deliveries := d.deliveries ++ [⟨copy, true, .started⟩] } where
  ready := fun old hold => h.ready old (List.mem_of_mem_eraseIdx hold)
  delivered := by
    intro t ht
    rcases List.mem_append.mp ht with hold | hnew
    · exact h.delivered t hold
    · rw [List.mem_singleton.mp hnew]
      exact h.ready copy (List.mem_of_getElem? hi)
  acking := by
    intro t ht hphase
    rcases List.mem_append.mp ht with hold | hnew
    · exact h.acking t hold hphase
    · rw [List.mem_singleton.mp hnew] at hphase
      cases hphase
  strong := by
    intro n e hn htype
    refine (h.strong n e hn htype).imp_right fun hs => ?_
    rcases hs with ⟨old, hold, rfl⟩ | ⟨t, ht, hheld, rfl⟩ | hdead
    · obtain ⟨j, hj⟩ := List.mem_iff_getElem?.mp hold
      by_cases hij : j = i
      · cases Option.some.inj ((hij ▸ hj).symm.trans hi)
        exact .inr (.inl ⟨⟨copy, true, .started⟩, by simp, ⟨rfl, by simp⟩, rfl⟩)
      · refine .inl ⟨old, ?_, rfl⟩
        exact List.mem_eraseIdx_iff_getElem?.mpr ⟨j, hij, hj⟩
    · exact .inr (.inl ⟨t, List.mem_append_left _ ht, hheld, rfl⟩)
    · exact .inr (.inr hdead)

theorem queueStep_kept (h : d.Kept c) {a : QueueAct} {d' : QueueState}
    (hs : queueStep c d a = some d') : d'.Kept c := by
  cases a with
  | publish e => exact Option.some.inj hs ▸ kept_publish h e
  | shared n retry =>
    obtain ⟨e, he, rfl⟩ := Option.map_eq_some_iff.mp hs
    exact h.deposit ⟨he, rfl, by simp, rfl⟩ exchangeName e.eventType
  | deliver i =>
    obtain ⟨copy, hcopy, rfl⟩ := Option.map_eq_some_iff.mp hs
    exact kept_deliver h hcopy
  | handler i ok =>
    simp only [queueStep] at hs
    split at hs
    · cases hs
    · rename_i t ht
      split_ifs at hs with hphase
      exact Option.some.inj hs ▸ kept_runHandler h ht ok
  | operation i reply =>
    simp only [queueStep] at hs
    split at hs
    · cases hs
    · rename_i t ht
      split at hs
      · rename_i hphase
        exact kept_ack h ht rfl (.inl rfl) (.inl hphase) hs
      · rename_i hphase
        exact kept_ack h ht rfl (.inr rfl) (.inr hphase) hs
      · split at hs
        · cases hs
        · rename_i retry hretry
          split_ifs at hs with hlimit
          · exact kept_reject h ht hs
          · exact Option.some.inj hs ▸ kept_republish h ht retry reply
      · cases hs
  | connectionLost =>
    cases hs
    refine kept_requeued h fun t ht => ?_
    obtain ⟨u, hu, rfl⟩ := List.mem_map.mp ht
    exact ⟨rfl, u, hu, rfl, rfl⟩
  | crash =>
    cases hs
    exact kept_requeued h fun t ht => by cases ht

end Kept

/-- In every state a started consumer reaches, each event it has a handler for was
handled, has a copy in the queue, or is dead-lettered. -/
theorem no_event_lost (c : Consumer) (acts : List QueueAct) (d : QueueState)
    (hrun : exec (queueStep c) .start acts = some d) (n : Nat) (e : Event)
    (hn : d.events[n]? = some e) (htype : e.eventType ∈ c.eventTypes) :
    n ∈ d.handled ∨ d.Queued n ∨ d.DeadLettered n := by
  have hkept : d.Kept c :=
    exec_invariant (QueueState.Kept c) (fun _ _ _ h hs => queueStep_kept h hs) (kept_start c) hrun
  rcases hkept.strong n e hn htype with hhandled | hready | ⟨t, ht, ⟨hheld, -⟩, rfl⟩ | hdead
  · exact .inl hhandled
  · exact .inr (.inl (.inl hready))
  · exact .inr (.inl (.inr ⟨t, ht, hheld, rfl⟩))
  · exact .inr (.inr hdead)

def shippingConsumer : Consumer := ⟨"shipping.events", ["StockReserved"]⟩

def reservedOrder : Event := Event.create (.stockReserved 1 [⟨7, 2⟩]) "2026-01-01T00:00:00Z" none

/-- The handler fails, the copy is re-published, and the process crashes before the `ack`. -/
def crashBeforeAck : List QueueAct :=
  [.publish reservedOrder, .deliver 0, .handler 0 false, .operation 0 .ok, .crash]

theorem no_event_lost_crashBeforeAck :
    ∃ d, exec (queueStep shippingConsumer) .start crashBeforeAck = some d ∧
      (0 ∈ d.handled ∨ d.Queued 0 ∨ d.DeadLettered 0) :=
  ⟨_, rfl, no_event_lost shippingConsumer crashBeforeAck _ rfl 0 reservedOrder rfl (by decide)⟩

end OrderMesh
