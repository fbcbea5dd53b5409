import Mathlib.Data.List.Perm.Basic
import OrderMesh.Library.Transition
import OrderMesh.Order.Service

namespace OrderMesh.Orders

open Transition

/-- Where a running call stands: it has committed and owes an event, or it has
read the order and is about to write. -/
inductive Task
  | announcing (event : Payload) (refreshed : Bool)
  | cancelling (id : Int) (order : Order)
  | settingStatus (id : Int) (status : OrderStatus)

def Task.owes : Task → Option Payload
  | .announcing event _ => some event
  | _ => none

/-- `committed` are the events of the changes that creates and cancels have committed, `lost`
those of them whose calls raised without publishing them. -/
structure Service where
  world : World
  running : List Task
  committed : List Payload
  lost : List Payload

inductive Label
  | create (customerId : Int) (payload : OrderCreate) (reply : Reply)
  | cancel (caller : Caller) (id : Int)
  | setStatus (id : Int) (status : OrderStatus)
  | resume (i : Nat) (reply : Reply)

/-- The call at position `i` ends. -/
def Service.drop (d : Service) (i : Nat) : Service := { d with running := d.running.eraseIdx i }

/-- The orders and their events after a commit; a commit that raises loses its event. -/
def Service.commit (d : Service) (orders : SerialTable Order) (event : Payload) (reply : Reply) :
    Service :=
  { d with
    world := { d.world with orders := orders }
    committed := d.committed ++ [event]
    lost := d.lost ++ if reply = .ok then [] else [event] }

/-- The next awaited step of the call at position `i`: of a cancel and of `set_status` the
commit, of a call that has committed the refresh and then the publication. -/
def resume (d : Service) (i : Nat) (reply : Reply) : Task → Service
  | .announcing event false =>
      if reply = .ok then { d with running := d.running.set i (.announcing event true) }
      else { d.drop i with lost := d.lost ++ [event] }
  | .announcing event true =>
      if reply = .refused then { d.drop i with lost := d.lost ++ [event] }
      else { d.drop i with
        world := { d.world with published := d.world.published ++ [event] } }
  | .cancelling id order =>
      if reply = .refused then d.drop i
      else
        let written := d.commit (writeStatus d.world.orders id .cancelled)
          (orderCancelled id order) reply
        if reply = .ok then
          { written with
            running := d.running.set i (.announcing (orderCancelled id order) false) }
        else written.drop i
  | .settingStatus id status =>
      if reply = .refused then d.drop i
      else { d.drop i with
        world := { d.world with orders := writeStatus d.world.orders id status } }

def serviceStep (d : Service) : Label → Option Service
  | .create customerId payload reply =>
      match newOrder customerId payload with
      | none => some d
      | some order =>
          if reply = .refused then some d
          else
            let event := orderCreated d.world.orders.next order
            let inserted := d.commit (d.world.orders.insert order) event reply
            some { inserted with
              running := d.running ++ if reply = .ok then [.announcing event false] else [] }
  | .cancel caller id =>
      match loadCancellable d.world.orders caller id with
      | .error _ => some d
      | .ok order => some { d with running := d.running ++ [.cancelling id order] }
  | .setStatus id status =>
      match d.world.orders.get? id with
      | none => some d
      | some order =>
          if order.status = status then some d
          else some { d with running := d.running ++ [.settingStatus id status] }
  | .resume i reply => (d.running[i]?).map (resume d i reply)

def Service.idle (w : World) : Service := ⟨w, [], [], []⟩

/-- The steps of a call that is alone, from its commit on. -/
def announceSteps (o : Outcomes) : List Label :=
  if o.commit = .ok then
    .resume 0 (if o.refresh then .ok else .refused) ::
      if o.refresh then [.resume 0 o.publish] else []
  else []

/-- A create alone is a run of its steps. -/
theorem exec_createOrder (w : World) {customerId : Int} {payload : OrderCreate} {order : Order}
    (o : Outcomes) (h : newOrder customerId payload = some order) :
    (exec serviceStep (.idle w) (.create customerId payload o.commit :: announceSteps o)).map
        (fun d => (d.world, d.running)) = some ((createOrder w customerId payload o).2, []) := by
  obtain ⟨commit, refresh, publish⟩ := o
  simp only [exec, serviceStep, createOrder, h]
  cases commit <;> cases refresh <;> cases publish <;> rfl

theorem exec_cancelOrder (w : World) {caller : Caller} {id : Int} {order : Order} (o : Outcomes)
    (h : loadCancellable w.orders caller id = .ok order) :
    (exec serviceStep (.idle w) (.cancel caller id :: .resume 0 o.commit :: announceSteps o)).map
        (fun d => (d.world, d.running)) = some ((cancelOrder w id order o).2, []) := by
  obtain ⟨commit, refresh, publish⟩ := o
  simp only [exec, serviceStep, Service.idle, h]
  cases commit <;> cases refresh <;> cases publish <;> rfl

/-- Every committed change has its event published, lost with a call that raised,
or still owed by a running call; and every order row was announced so. -/
structure Service.Accounted (d : Service) : Prop where
  balance : d.committed.Perm (d.world.published ++ d.lost ++ d.running.filterMap Task.owes)
  rows : ∀ r ∈ d.world.orders.rows, orderCreated r.1 r.2 ∈ d.committed

variable {d : Service}

theorem Service.Accounted.count (h : d.Accounted) (e : Payload) :
    d.committed.count e = d.world.published.count e + d.lost.count e +
      (d.running.filterMap Task.owes).count e := by
  simpa [List.count_append, Nat.add_assoc] using h.balance.count_eq e

end OrderMesh.Orders
