import Mathlib.Algebra.Group.Int.Defs
import OrderMesh.Library.Dict
import OrderMesh.Library.IntText
import OrderMesh.Shared.Events.Schema

namespace OrderMesh

/-- The integers that a header of AMQP holds. -/
def InHeader (n : Int) : Prop := -2 ^ 63 ≤ n ∧ n < 2 ^ 63

instance (n : Int) : Decidable (InHeader n) := inferInstanceAs (Decidable (_ ∧ _))

inductive HeaderValue
  | int (n : Int)
  | text (s : String)
  deriving DecidableEq

/-- A body that is the JSON text of an event, or bytes that are not. -/
inductive Body
  | event (e : Event)
  | malformed (bytes : List UInt8)
  deriving DecidableEq

structure Message where
  body : Body
  headers : Dict String HeaderValue
  contentType : Option String
  routingKey : String
  deriving DecidableEq

/-- The message `Broker.publish` hands to the exchange. -/
def publish (e : Event) : Message where
  body := .event e
  headers := Dict.empty.set "x-event-type" (.text e.eventType)
  contentType := some "application/json"
  routingKey := e.eventType

def maxRetries : Int := 3

/-- `int(headers.get("x-retry", 0))`; `none` when `int` refuses the value. -/
def Message.retry (m : Message) : Option Int :=
  match m.headers.get? "x-retry" with
  | none => some 0
  | some (.int n) => some n
  | some (.text s) => IntText.int s

/-- The copy that is published for the next attempt. -/
def Message.republished (m : Message) (retry : Int) : Message :=
  { m with headers := m.headers.set "x-retry" (.int retry) }

inductive Settlement
  | acked
  | rejected
  | republished (copy : Message)
  deriving DecidableEq

/-- How `_handle` settles a message when the handler succeeds or fails as `ok`
says; `none` when the retry count cannot be read and the exception escapes. -/
def settle (limit : Int) (handlers : String → Bool) (m : Message) (ok : Bool) : Option Settlement :=
  match m.retry with
  | none => none
  | some retry =>
      let failed : Settlement :=
        if retry + 1 ≥ limit then .rejected else .republished (m.republished (retry + 1))
      match m.body with
      | .malformed _ => some failed
      | .event e =>
          if handlers e.eventType then some (if ok then .acked else failed) else some .acked

@[simp] theorem Message.retry_republished (m : Message) (retry : Int) :
    (m.republished retry).retry = some retry := by
  simp [Message.retry, Message.republished]

@[simp] theorem Message.body_republished (m : Message) (retry : Int) :
    (m.republished retry).body = m.body := rfl

theorem retry_publish (e : Event) : (publish e).retry = some 0 := by
  simp [Message.retry, publish]

/-- A copy of a handled event that fails goes on, or is dead-lettered at the limit. -/
theorem settle_event {limit : Int} {handlers : String → Bool} {m : Message} {e : Event} {r : Int}
    (hbody : m.body = .event e) (hhandler : handlers e.eventType = true) (hretry : m.retry = some r)
    (ok : Bool) :
    settle limit handlers m ok = some (if ok then .acked
      else if r + 1 ≥ limit then .rejected else .republished (m.republished (r + 1))) := by
  simp [settle, hretry, hbody, hhandler]

end OrderMesh
