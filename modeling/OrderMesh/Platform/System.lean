import OrderMesh.Inventory.Transactions
import OrderMesh.Library.Pool
import OrderMesh.Order.Service
import OrderMesh.Shared.Events.Consumer
import OrderMesh.Shipping.Service

namespace OrderMesh.Platform

open Orders (OrderStatus OrderCreate Caller)
open Inventory (Call Phase Ret ProductCreate)
open Shipping (Shipment Shipments ShipmentStatus)

inductive Queue
  | order
  | inventory
  | shipping
  deriving DecidableEq

/-- The event types the consumer of the queue has a handler for, and is bound to. -/
def Queue.handlers : Queue → List EventType
  | .order => [.stockReserved, .stockUnavailable, .shipmentCreated]
  | .inventory => [.orderCreated, .orderCancelled]
  | .shipping => [.stockReserved]

def queues : List Queue := [.order, .inventory, .shipping]

/-- A message: its payload, and how often its handling has failed. -/
structure Letter where
  payload : Payload
  retry : Int
  deriving DecidableEq

/-- How far a handler has come: it has read an order of another status, locks stock, has found no
shipment, has committed one that it is about to refresh, or is about to publish. -/
inductive Stage
  | setting (status : OrderStatus)
  | stock (phase : Phase)
  | unshipped
  | inserted (shipment : Int × Shipment)
  | announcing (p : Payload)

/-- A cancel that has read its order, a request that has committed and is about to refresh its row
and publish, a handler, or a message on its way to one. -/
inductive Work
  | cancelling (id : Int) (order : Orders.Order)
  | requested (p : Payload)
  | running (q : Queue) (l : Letter) (stage : Stage)
  | queued (q : Queue) (l : Letter)
  | backoff (l : Letter)
  | dead (q : Queue) (l : Letter)

structure State where
  orders : SerialTable Orders.Order
  stock : Inventory.Store
  shipments : Shipments
  flight : List Work

/-- The exchange hands a message to every queue bound to its type. -/
def exchange (l : Letter) : List Work :=
  (queues.filter fun q => l.payload.eventType ∈ q.handlers).map fun q => .queued q l

/-- What becomes of a message whose handler fails. -/
def failed (q : Queue) (l : Letter) : Work :=
  if l.retry + 1 ≥ maxRetries then .dead q l else .backoff { l with retry := l.retry + 1 }

/-- The status the order service sets on an event. -/
def target : Payload → Option OrderStatus
  | .stockReserved .. => some .confirmed
  | .stockUnavailable .. => some .cancelled
  | .shipmentCreated .. => some .shipped
  | _ => none

/-- The call the inventory service makes on an event. -/
def call : Payload → Option Call
  | .orderCreated orderId _ _ items => some (.reserveForOrder orderId items)
  | .orderCancelled orderId _ => some (.releaseForOrder orderId)
  | _ => none

/-- What the inventory service publishes when its call returns. -/
def answer : Payload → Ret → Option Payload
  | .orderCreated orderId _ _ items, .reserved ok =>
      some (if ok then .stockReserved orderId items else .stockUnavailable orderId)
  | .orderCancelled orderId _, .released ids =>
      if ids.isEmpty then none else some (.stockReleased orderId ids)
  | _, _ => none

def Work.locks : Work → List Int
  | .running _ _ (.stock phase) => phase.locks
  | _ => []

/-- A row lock waits until no handler holds the row. -/
def State.lockFree (d : State) : Inventory.Move → Bool
  | .lock productId => d.flight.all fun w => productId ∉ w.locks
  | _ => true

/-- A handler whose call has returned goes on to publish. -/
def afterStock (l : Letter) : Phase → List Work
  | .finished ret =>
      match answer l.payload ret with
      | some p => [.running .inventory l (.announcing p)]
      | none => []
  | phase => [.running .inventory l (.stock phase)]

def stockStep (d : State) (l : Letter) (phase : Phase) (m : Inventory.Move) :
    Option (State × List Work) :=
  match call l.payload with
  | none => none
  | some c =>
      if d.lockFree m then
        (Inventory.advance d.stock c phase m).map fun r =>
          ({ d with stock := r.2 }, afterStock l r.1)
      else none

/-- The first step of `set_status`. -/
def readOrder (d : State) (l : Letter) : List Work :=
  match target l.payload with
  | none => []
  | some status =>
      match d.orders.get? l.payload.orderId with
      | none => []
      | some order =>
          if order.status = status then [] else [.running .order l (.setting status)]

/-- The lookup of `create_shipment`. -/
def readShipment (d : State) (l : Letter) : List Work :=
  match l.payload with
  | .stockReserved orderId _ =>
      match Shipping.existing d.shipments orderId with
      | some shipment => [.running .shipping l (.announcing (Shipping.shipmentCreated shipment))]
      | none => [.running .shipping l .unshipped]
  | _ => []

inductive Move
  | go
  | fail
  | stock (m : Inventory.Move)
  | ship (courier : String) (year : Nat)
  deriving DecidableEq

/-- One step of one piece of work: the tables after it, and what takes its place.
After its publication a handler only acknowledges its message. -/
def advance (d : State) : Work → Move → Option (State × List Work)
  | .cancelling id order, .go =>
      some ({ d with orders := Orders.writeStatus d.orders id .cancelled },
        [.requested (Orders.orderCancelled id order)])
  | .cancelling _ _, .fail => some (d, [])
  | .requested p, .go => some (d, exchange ⟨p, 0⟩)
  | .requested _, .fail => some (d, [])
  | .backoff l, .go => some (d, exchange l)
  | .queued .order l, .go => some (d, readOrder d l)
  | .queued .shipping l, .go => some (d, readShipment d l)
  | .queued .inventory l, .go => if call l.payload = none then some (d, []) else none
  | .queued .inventory l, .stock m => stockStep d l .ready m
  | .queued q l, .fail => some (d, [failed q l])
  | .running .order l (.setting status), .go =>
      some ({ d with orders := Orders.writeStatus d.orders l.payload.orderId status }, [])
  | .running .inventory l (.stock phase), .stock m => stockStep d l phase m
  | .running .shipping l .unshipped, .ship courier year =>
      if courier ∈ Shipping.couriers then
        match Shipping.insertShipment d.shipments l.payload.orderId courier year with
        | some (shipment, shipments) =>
            some ({ d with shipments := shipments }, [.running .shipping l (.inserted shipment)])
        | none => some (d, [failed .shipping l])
      else none
  | .running .shipping l (.inserted shipment), .go =>
      some (d, [.running .shipping l (.announcing (Shipping.shipmentCreated shipment))])
  | .running _ _ (.announcing p), .go => some (d, exchange ⟨p, 0⟩)
  | .running q l _, .fail => some (d, [failed q l])
  | _, _ => none

inductive Label
  | createOrder (customerId : Int) (payload : OrderCreate)
  | cancelOrder (caller : Caller) (id : Int)
  | createProduct (id : Int) (payload : ProductCreate)
  | updateShipment (id : Int) (status : ShipmentStatus)
  | work (i : Nat) (m : Move)

/-- A request that is refused changes nothing. -/
def step (d : State) : Label → Option State
  | .createOrder customerId payload =>
      match Orders.newOrder customerId payload with
      | none => some d
      | some order =>
          some { d with
            orders := d.orders.insert order
            flight := d.flight ++ [.requested (Orders.orderCreated d.orders.next order)] }
  | .cancelOrder caller id =>
      match Orders.loadCancellable d.orders caller id with
      | .error _ => some d
      | .ok order => some { d with flight := d.flight ++ [.cancelling id order] }
  | .createProduct id payload =>
      match Inventory.createProduct d.stock id payload with
      | none => some d
      | some r => some { d with stock := r.2 }
  | .updateShipment id status =>
      match d.shipments.get? id with
      | none => some d
      | some shipment =>
          some { d with
            shipments := Shipping.updateStatus d.shipments id status
            flight := d.flight ++
              if status = .delivered then [.requested (Shipping.shipmentDelivered shipment)]
              else [] }
  | .work i m =>
      match d.flight[i]? with
      | none => none
      | some w =>
          (advance d w m).map fun r => { r.1 with flight := Pool.replace d.flight i r.2 }

def State.empty : State := ⟨.empty, .empty, .empty, []⟩

/-- The message a letter stands for. -/
def Letter.message (l : Letter) (timestamp : String) (requestId : Option String) : Message :=
  let original := publish (Event.create l.payload timestamp requestId)
  if l.retry = 0 then original else original.republished l.retry

theorem Letter.retry_message (l : Letter) (timestamp : String) (requestId : Option String) :
    (l.message timestamp requestId).retry = some l.retry := by
  unfold Letter.message
  split_ifs with h
  · rw [h]
    exact retry_publish _
  · exact Message.retry_republished _ _

/-- The copy that is published for the next attempt. -/
theorem Letter.republished_message (l : Letter) (hretry : 0 ≤ l.retry) (timestamp : String)
    (requestId : Option String) : (l.message timestamp requestId).republished (l.retry + 1) =
      { l with retry := l.retry + 1 : Letter }.message timestamp requestId := by
  have hnext : l.retry + 1 ≠ 0 := by omega
  unfold Letter.message
  rw [if_neg hnext]
  split_ifs
  · rfl
  · simp only [Message.republished, Dict.set_set]

/-- A handler that fails settles its message as the consumer does. -/
theorem settle_failed (q : Queue) (l : Letter) (hretry : 0 ≤ l.retry) (timestamp : String)
    (requestId : Option String) {handlers : String → Bool}
    (hhandler : handlers l.payload.eventType.value = true) :
    settle maxRetries handlers (l.message timestamp requestId) false =
      some (match failed q l with
        | .backoff copy => .republished (copy.message timestamp requestId)
        | _ => .rejected) := by
  have hbody : (l.message timestamp requestId).body =
      .event (Event.create l.payload timestamp requestId) := by
    unfold Letter.message
    split_ifs <;> rfl
  rw [settle_event hbody hhandler (l.retry_message timestamp requestId) false,
    l.republished_message hretry]
  unfold failed
  by_cases h : l.retry + 1 ≥ maxRetries
  · simp [h]
  · simp [h]

/-- The first step of an order handler goes on only when it has a status to write. -/
theorem mem_readOrder {d : State} {l : Letter} {w : Work} (h : w ∈ readOrder d l) :
    ∃ status, target l.payload = some status ∧ w = .running .order l (.setting status) := by
  unfold readOrder at h
  split at h
  · cases h
  · next status htarget =>
    split at h
    · cases h
    · split_ifs at h
      · cases h
      · exact ⟨status, htarget, List.mem_singleton.mp h⟩

/-- The lookup of a shipping handler finds the shipment of its order, or goes on to insert. -/
theorem mem_readShipment {d : State} {l : Letter} {w : Work} (h : w ∈ readShipment d l) :
    l.payload.eventType = .stockReserved ∧
      ((∃ shipment, Shipping.existing d.shipments l.payload.orderId = some shipment ∧
        w = .running .shipping l (.announcing (Shipping.shipmentCreated shipment))) ∨
          w = .running .shipping l .unshipped) := by
  unfold readShipment at h
  split at h
  · next orderId items hl =>
    rw [hl]
    refine ⟨rfl, ?_⟩
    split at h
    · next shipment hfound => exact .inl ⟨shipment, hfound, List.mem_singleton.mp h⟩
    · exact .inr (List.mem_singleton.mp h)
  · cases h

/-- Without another write in between, the two steps of an order handler are `set_status`. -/
theorem readOrder_setStatus (d : State) (l : Letter) {status : OrderStatus}
    (h : target l.payload = some status) :
    Orders.setStatus d.orders l.payload.orderId status =
      if readOrder d l = [] then d.orders
      else Orders.writeStatus d.orders l.payload.orderId status := by
  unfold Orders.setStatus readOrder
  rw [h]
  cases d.orders.get? l.payload.orderId with
  | none => rfl
  | some order =>
    by_cases hs : order.status = status
    · simp [hs]
    · simp [hs]

/-- Everything one step of a piece of work can be. -/
inductive Advanced (d : State) : Work → Move → State → List Work → Prop
  | cancelled {id order} : Advanced d (.cancelling id order) .go
      { d with orders := Orders.writeStatus d.orders id .cancelled }
      [.requested (Orders.orderCancelled id order)]
  | cancelFailed {id order} : Advanced d (.cancelling id order) .fail d []
  | requested {p} : Advanced d (.requested p) .go d (exchange ⟨p, 0⟩)
  | requestFailed {p} : Advanced d (.requested p) .fail d []
  | republished {l} : Advanced d (.backoff l) .go d (exchange l)
  | orderRead {l} : Advanced d (.queued .order l) .go d (readOrder d l)
  | shipmentRead {l} : Advanced d (.queued .shipping l) .go d (readShipment d l)
  | unhandled {l} (h : call l.payload = none) : Advanced d (.queued .inventory l) .go d []
  | stockRead {l c m phase s} (hc : call l.payload = some c)
      (hmoved : Inventory.Moved d.stock c .ready m phase s) :
      Advanced d (.queued .inventory l) (.stock m) { d with stock := s } (afterStock l phase)
  | queuedFailed {q l} : Advanced d (.queued q l) .fail d [failed q l]
  | statusSet {l status} : Advanced d (.running .order l (.setting status)) .go
      { d with orders := Orders.writeStatus d.orders l.payload.orderId status } []
  | stockMoved {l c m phase phase' s} (hc : call l.payload = some c)
      (hmoved : Inventory.Moved d.stock c phase m phase' s) :
      Advanced d (.running .inventory l (.stock phase)) (.stock m) { d with stock := s }
        (afterStock l phase')
  | shipped {l courier year shipment shipments}
      (h : Shipping.insertShipment d.shipments l.payload.orderId courier year =
        some (shipment, shipments)) :
      Advanced d (.running .shipping l .unshipped) (.ship courier year)
        { d with shipments := shipments } [.running .shipping l (.inserted shipment)]
  | shipRefused {l courier year} : Advanced d (.running .shipping l .unshipped)
      (.ship courier year) d [failed .shipping l]
  | refreshed {l shipment} : Advanced d (.running .shipping l (.inserted shipment)) .go d
      [.running .shipping l (.announcing (Shipping.shipmentCreated shipment))]
  | announced {q l p} : Advanced d (.running q l (.announcing p)) .go d (exchange ⟨p, 0⟩)
  | runningFailed {q l stage} : Advanced d (.running q l stage) .fail d [failed q l]

theorem stockStep_eq_some {d d' : State} {l : Letter} {phase : Phase} {m : Inventory.Move}
    {new : List Work} (h : stockStep d l phase m = some (d', new)) :
    ∃ c phase' s, call l.payload = some c ∧ Inventory.Moved d.stock c phase m phase' s ∧
      d' = { d with stock := s } ∧ new = afterStock l phase' := by
  unfold stockStep at h
  split at h
  · cases h
  · rename_i c hc
    split_ifs at h
    obtain ⟨⟨phase', s⟩, hadv, heq⟩ := Option.map_eq_some_iff.mp h
    cases heq
    exact ⟨c, phase', s, hc, Inventory.advance_moved hadv, rfl, rfl⟩

theorem advance_advanced {d d' : State} {w : Work} {m : Move} {new : List Work}
    (h : advance d w m = some (d', new)) : Advanced d w m d' new := by
  unfold advance at h
  split at h
  case h_1 => cases h; exact .cancelled
  case h_2 => cases h; exact .cancelFailed
  case h_3 => cases h; exact .requested
  case h_4 => cases h; exact .requestFailed
  case h_5 => cases h; exact .republished
  case h_6 => cases h; exact .orderRead
  case h_7 => cases h; exact .shipmentRead
  case h_8 =>
    split_ifs at h with hc
    cases h
    exact .unhandled hc
  case h_9 =>
    obtain ⟨c, phase, s, hc, hmoved, rfl, rfl⟩ := stockStep_eq_some h
    exact .stockRead hc hmoved
  case h_10 => cases h; exact .queuedFailed
  case h_11 => cases h; exact .statusSet
  case h_12 =>
    obtain ⟨c, phase, s, hc, hmoved, rfl, rfl⟩ := stockStep_eq_some h
    exact .stockMoved hc hmoved
  case h_13 =>
    split_ifs at h
    split at h
    · rename_i hinsert
      cases h
      exact .shipped hinsert
    · cases h
      exact .shipRefused
  case h_14 => cases h; exact .refreshed
  case h_15 => cases h; exact .announced
  case h_16 => cases h; exact .runningFailed
  case h_17 => cases h

/-- Everything one step can be. -/
inductive Stepped (d : State) : Label → State → Prop
  | refused {a} : Stepped d a d
  | created {customerId payload order} (hnew : Orders.newOrder customerId payload = some order) :
      Stepped d (.createOrder customerId payload) { d with
        orders := d.orders.insert order
        flight := d.flight ++ [.requested (Orders.orderCreated d.orders.next order)] }
  | loaded {caller id order} (hload : Orders.loadCancellable d.orders caller id = .ok order) :
      Stepped d (.cancelOrder caller id) { d with flight := d.flight ++ [.cancelling id order] }
  | productCreated {id payload product s}
      (hcreate : Inventory.createProduct d.stock id payload = some (product, s)) :
      Stepped d (.createProduct id payload) { d with stock := s }
  | shipmentUpdated {id status shipment} (hget : d.shipments.get? id = some shipment) :
      Stepped d (.updateShipment id status) { d with
        shipments := Shipping.updateStatus d.shipments id status
        flight := d.flight ++
          if status = .delivered then [.requested (Shipping.shipmentDelivered shipment)] else [] }
  | worked {i m w e new} (hw : d.flight[i]? = some w) (hadvanced : Advanced d w m e new) :
      Stepped d (.work i m) { e with flight := Pool.replace d.flight i new }

theorem step_stepped {d d' : State} {a : Label} (h : step d a = some d') : Stepped d a d' := by
  unfold step at h
  split at h
  case h_1 =>
    split at h
    · cases h; exact .refused
    · rename_i hnew
      cases h
      exact .created hnew
  case h_2 =>
    split at h
    · cases h; exact .refused
    · rename_i hload
      cases h
      exact .loaded hload
  case h_3 =>
    split at h
    · cases h; exact .refused
    · rename_i hcreate
      cases h
      exact .productCreated hcreate
  case h_4 =>
    split at h
    · cases h; exact .refused
    · rename_i hget
      cases h
      exact .shipmentUpdated hget
  case h_5 =>
    split at h
    · cases h
    · rename_i hw
      obtain ⟨⟨e, new⟩, hadv, rfl⟩ := Option.map_eq_some_iff.mp h
      exact .worked hw (advance_advanced hadv)

end OrderMesh.Platform
