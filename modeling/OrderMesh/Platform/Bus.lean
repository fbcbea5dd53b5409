import OrderMesh.Library.Lockstep
import OrderMesh.Platform.System
import OrderMesh.Shared.Events.Dicts

namespace OrderMesh.Platform.Bus

open Inventory (Call Phase Ret ProductCreate)
open Orders (OrderStatus OrderCreate)
open Shipping (Shipment Shipments ShipmentStatus)

variable {δ : Type}

/-- A message in a queue; `retry` is `none` when `int` raises over its `x-retry`. -/
structure Mail where
  body : String
  routingKey : String
  retry : Option Int

/-- The values that a handler of the inventory service has read, and publishes again. -/
inductive Asked (δ : Type)
  | reserve (orderId items : Json δ)
  | release (orderId : Json δ)

inductive Stage (δ : Type)
  | setting (orderId : Int) (status : OrderStatus)
  | stock (asked : Asked δ) (c : Call) (phase : Phase)
  | unshipped (value : Json δ) (orderId : Int)
  | inserted (value : Json δ) (shipment : Int × Shipment)
  | announcing (e : Envelope δ)

inductive Work (δ : Type)
  | cancelling (id : Int) (order : Orders.Order)
  | requested (e : Envelope δ)
  | running (q : Queue) (m : Mail) (stage : Stage δ)
  | queued (q : Queue) (m : Mail)
  | backoff (q : Queue) (m : Mail)
  | dead (q : Queue) (m : Mail)
  | stuck (q : Queue) (m : Mail)

structure State (δ : Type) where
  orders : SerialTable Orders.Order
  stock : Inventory.Store
  shipments : Shipments
  flight : List (Work δ)

/-- The time and the request id that `Event.create` takes. -/
abbrev Stamp := String × Option String

/-- `Event.create`. -/
def create (eventType : EventType) (payload : Json δ) (stamp : Stamp) : Envelope δ :=
  ⟨eventType.value, stamp.1, stamp.2, payload⟩

def exchange (m : Mail) : List (Work δ) :=
  (queues.filter fun q => m.routingKey ∈ q.handlers.map EventType.value).map fun q => .queued q m

/-- What `_handle` leaves of a message whose handler raises. The message stays unacknowledged
where `int` raises over its `x-retry` before, or `publish` over that of its copy after. -/
def failed (q : Queue) (m : Mail) : Work δ :=
  match m.retry with
  | none => .stuck q m
  | some retry =>
      if retry + 1 ≥ maxRetries then .dead q m
      else if InHeader (retry + 1) then .backoff q { m with retry := some (retry + 1) }
      else .stuck q m

section

variable (lib : Libraries δ)

/-- `Broker.publish`. -/
def publish (e : Envelope δ) : List (Work δ) := exchange ⟨lib.modelDumpJson e, e.eventType, some 0⟩

/-- The handlers of the order service differ in the status. -/
def target (eventType : String) : Option OrderStatus :=
  if eventType = "StockReserved" then some .confirmed
  else if eventType = "StockUnavailable" then some .cancelled
  else if eventType = "ShipmentCreated" then some .shipped
  else none

/-- The first step of `set_status`; `none` when the handler raises. -/
def readOrder (d : State δ) (m : Mail) : Option (List (Work δ)) := do
  let e ← lib.modelValidateJson m.body
  match target e.eventType with
  | none => return []
  | some status =>
      let orderId ← lib.orderId e.payload
      match d.orders.get? orderId with
      | none => return []
      | some order =>
          return if order.status = status then [] else [.running .order m (.setting orderId status)]

def shipmentCreated (value : Json δ) (shipment : Int × Shipment) : Stamp → Envelope δ :=
  create .shipmentCreated (.obj [("order_id", value), ("shipment_id", .int shipment.1),
    ("tracking_number", .str shipment.2.trackingNumber),
    ("courier_name", .str shipment.2.courierName)])

/-- The lookup of `create_shipment`; `none` when the handler raises. -/
def readShipment (d : State δ) (stamp : Stamp) (m : Mail) : Option (List (Work δ)) := do
  let e ← lib.modelValidateJson m.body
  if e.eventType = "StockReserved" then
    let value ← e.payload.get? "order_id"
    let orderId ← lib.integer value
    match Shipping.existing d.shipments orderId with
    | some shipment =>
        return [.running .shipping m (.announcing (shipmentCreated value shipment stamp))]
    | none => return [.running .shipping m (.unshipped value orderId)]
  else return []

/-- What the handlers of the inventory service read: the call they make, and none for a type
without a handler. They raise where there is nothing to read. -/
def ask (m : Mail) : Option (Option (Asked δ × Call)) := do
  let e ← lib.modelValidateJson m.body
  if e.eventType = "OrderCreated" then
    let orderId ← e.payload.get? "order_id"
    let items ← e.payload.get? "items"
    return some (.reserve orderId items,
      .reserveForOrder (← lib.integer orderId) (← lib.items items))
  else if e.eventType = "OrderCancelled" then
    let orderId ← e.payload.get? "order_id"
    return some (.release orderId, .releaseForOrder (← lib.integer orderId))
  else return none

/-- What the inventory service publishes when its call returns. -/
def answer : Asked δ → Ret → Option (EventType × Json δ)
  | .reserve orderId items, .reserved ok =>
      some (if ok then (.stockReserved, .obj [("order_id", orderId), ("items", items)])
        else (.stockUnavailable, .obj [("order_id", orderId)]))
  | .release orderId, .released ids =>
      if ids.isEmpty then none
      else some (.stockReleased, .obj [("order_id", orderId), ("product_ids", .arr (ids.map .int))])
  | _, _ => none

def Work.locks : Work δ → List Int
  | .running _ _ (.stock _ _ phase) => phase.locks
  | _ => []

def State.lockFree (d : State δ) : Inventory.Move → Bool
  | .lock productId => d.flight.all fun w => productId ∉ w.locks
  | _ => true

def afterStock (stamp : Stamp) (m : Mail) (asked : Asked δ) (c : Call) : Phase → List (Work δ)
  | .finished ret =>
      match answer asked ret with
      | some (eventType, payload) =>
          [.running .inventory m (.announcing (create eventType payload stamp))]
      | none => []
  | phase => [.running .inventory m (.stock asked c phase)]

def stockStep (d : State δ) (stamp : Stamp) (m : Mail) (asked : Asked δ) (c : Call) (phase : Phase)
    (move : Inventory.Move) : Option (State δ × List (Work δ)) :=
  if d.lockFree move then
    (Inventory.advance d.stock c phase move).map fun r =>
      ({ d with stock := r.2 }, afterStock stamp m asked c r.1)
  else none

/-- A handler that raises fails. -/
def orFailed (q : Queue) (m : Mail) (work : Option (List (Work δ))) : List (Work δ) :=
  work.getD [failed q m]

/-- The first step of the handler of a message. -/
def handle (stamp : Stamp) (d : State δ) (m : Mail) :
    Queue → Move → Option (State δ × List (Work δ))
  | .order, .go => some (d, orFailed .order m (readOrder lib d m))
  | .shipping, .go => some (d, orFailed .shipping m (readShipment lib d stamp m))
  | .inventory, .go =>
      match ask lib m with
      | none => some (d, [failed .inventory m])
      | some none => some (d, [])
      | some (some _) => none
  | .inventory, .stock move =>
      match ask lib m with
      | some (some (asked, c)) => stockStep d stamp m asked c .ready move
      | _ => none
  | q, .fail => some (d, [failed q m])
  | _, _ => none

/-- One step of one piece of work. A message that stays unacknowledged is delivered again when
its channel is closed. -/
def advance (stamp : Stamp) (d : State δ) : Work δ → Move → Option (State δ × List (Work δ))
  | .cancelling id order, .go =>
      some ({ d with orders := Orders.writeStatus d.orders id .cancelled },
        [.requested (create .orderCancelled (Orders.orderCancelled id order).dict stamp)])
  | .cancelling _ _, .fail => some (d, [])
  | .requested e, .go => some (d, publish lib e)
  | .requested _, .fail => some (d, [])
  | .backoff _ m, .go => some (d, exchange m)
  | .queued q m, move =>
      match m.retry with
      | none => if move = .go then some (d, [.stuck q m]) else none
      | some _ => handle lib stamp d m q move
  | .stuck q m, .fail => some (d, [.queued q m])
  | .running .order _ (.setting orderId status), .go =>
      some ({ d with orders := Orders.writeStatus d.orders orderId status }, [])
  | .running .inventory m (.stock asked c phase), .stock move =>
      stockStep d stamp m asked c phase move
  | .running .shipping m (.unshipped value orderId), .ship courier year =>
      if courier ∈ Shipping.couriers then
        match Shipping.insertShipment d.shipments orderId courier year with
        | some (shipment, shipments) =>
            some ({ d with shipments := shipments },
              [.running .shipping m (.inserted value shipment)])
        | none => some (d, [failed .shipping m])
      else none
  | .running .shipping m (.inserted value shipment), .go =>
      some (d, [.running .shipping m (.announcing (shipmentCreated value shipment stamp))])
  | .running _ _ (.announcing e), .go => some (d, publish lib e)
  | .running q m _, .fail => some (d, [failed q m])
  | _, _ => none

/-- A step of the platform, with the stamp of the event that it may create. -/
def step (d : State δ) : Label × Stamp → Option (State δ)
  | (.createOrder customerId payload, stamp) =>
      match Orders.newOrder customerId payload with
      | none => some d
      | some order =>
          some { d with
            orders := d.orders.insert order
            flight := d.flight ++ [.requested
              (create .orderCreated (Orders.orderCreated d.orders.next order).dict stamp)] }
  | (.cancelOrder caller id, _) =>
      match Orders.loadCancellable d.orders caller id with
      | .error _ => some d
      | .ok order => some { d with flight := d.flight ++ [.cancelling id order] }
  | (.createProduct id payload, _) =>
      match Inventory.createProduct d.stock id payload with
      | none => some d
      | some r => some { d with stock := r.2 }
  | (.updateShipment id status, stamp) =>
      match d.shipments.get? id with
      | none => some d
      | some shipment =>
          some { d with
            shipments := Shipping.updateStatus d.shipments id status
            flight := d.flight ++
              if status = .delivered then [.requested
                (create .shipmentDelivered (Shipping.shipmentDelivered shipment).dict stamp)]
              else [] }
  | (.work i m, stamp) =>
      match d.flight[i]? with
      | none => none
      | some w =>
          (advance lib stamp d w m).map fun r => { r.1 with flight := Pool.replace d.flight i r.2 }

end

def State.empty : State δ := ⟨.empty, .empty, .empty, []⟩

/-- The id that the request draws for an order fits its column. -/
def DrawsFit (orders : SerialTable Orders.Order) : Label → Prop
  | .createOrder _ _ => Orders.integer orders.next = some orders.next
  | _ => True

instance (orders : SerialTable Orders.Order) : (a : Label) → Decidable (DrawsFit orders a)
  | .createOrder _ _ => inferInstanceAs (Decidable (_ = _))
  | .cancelOrder _ _ => .isTrue trivial
  | .createProduct _ _ => .isTrue trivial
  | .updateShipment _ _ => .isTrue trivial
  | .work _ _ => .isTrue trivial

section

variable (lib : Libraries δ)

/-- The message is one of the payload, whose numbers fit their columns. -/
structure Carries (m : Mail) (l : Letter) : Prop where
  body : ∃ timestamp requestId, lib.modelValidateJson m.body =
    some (Event.create l.payload timestamp requestId).envelope
  routingKey : m.routingKey = l.payload.eventType.value
  retry : m.retry = some l.retry
  nonneg : 0 ≤ l.retry
  fits : l.payload.Fits

/-- What a handler has read is what the payload says. -/
inductive Stage.Shows (l : Letter) : Stage δ → Platform.Stage → Prop
  | setting {status : OrderStatus} :
      Stage.Shows l (.setting l.payload.orderId status) (.setting status)
  | stock {asked : Asked δ} {c : Call} {phase : Phase} (hcall : call l.payload = some c)
      (hanswer : ∀ ret, answer asked ret =
        (Platform.answer l.payload ret).map fun p => (p.eventType, p.dict)) :
      Stage.Shows l (.stock asked c phase) (.stock phase)
  | unshipped : Stage.Shows l (.unshipped (.int l.payload.orderId) l.payload.orderId) .unshipped
  | inserted {shipment : Int × Shipment} (horder : shipment.2.orderId = l.payload.orderId) :
      Stage.Shows l (.inserted (.int l.payload.orderId) shipment) (.inserted shipment)
  | announcing {p : Payload} {stamp : Stamp} (hp : p.Fits) :
      Stage.Shows l (.announcing (create p.eventType p.dict stamp)) (.announcing p)

inductive Shows : Work δ → Platform.Work → Prop
  | cancelling {id : Int} {order : Orders.Order} (hid : Orders.integer id = some id) :
      Shows (.cancelling id order) (.cancelling id order)
  | requested {p : Payload} {stamp : Stamp} (hp : p.Fits) :
      Shows (.requested (create p.eventType p.dict stamp)) (.requested p)
  | running {q : Queue} {m : Mail} {l : Letter} {stage : Stage δ} {stage' : Platform.Stage}
      (hm : Carries lib m l) (hstage : stage.Shows l stage') :
      Shows (.running q m stage) (.running q l stage')
  | queued {q : Queue} {m : Mail} {l : Letter} (hm : Carries lib m l) :
      Shows (.queued q m) (.queued q l)
  | backoff {q : Queue} {m : Mail} {l : Letter} (hm : Carries lib m l) :
      Shows (.backoff q m) (.backoff l)
  | dead {q : Queue} {m : Mail} {l : Letter} (hm : Carries lib m l) : Shows (.dead q m) (.dead q l)

/-- The same tables, in which the ids of the orders fit their columns. -/
structure SameTables (d : State δ) (s : Platform.State) : Prop where
  orders : d.orders = s.orders
  stock : d.stock = s.stock
  shipments : d.shipments = s.shipments
  ids : ∀ id order, s.orders.get? id = some order → Orders.integer id = some id
  shipped : ∀ id shipment, s.shipments.get? id = some shipment →
    Orders.integer shipment.orderId = some shipment.orderId

/-- The same tables, and the same work in flight. -/
structure Related (d : State δ) (s : Platform.State) : Prop extends SameTables d s where
  flight : List.Forall₂ (Shows lib) d.flight s.flight

/-- Steps that change the tables alike and leave the same work behind. -/
def SameStep (r : State δ × List (Work δ)) (r' : Platform.State × List Platform.Work) : Prop :=
  SameTables r.1 r'.1 ∧ List.Forall₂ (Shows lib) r.2 r'.2

end

section

variable {lib : Libraries δ} {d : State δ} {s : Platform.State} {m : Mail} {l : Letter}

theorem rel_singleton {w : Work δ} {w' : Platform.Work} (h : Shows lib w w') :
    List.Forall₂ (Shows lib) [w] [w'] := .cons h .nil

theorem Shows.locks {w : Work δ} {w' : Platform.Work} (h : Shows lib w w') :
    w.locks = w'.locks := by
  cases h with
  | running hm hstage => cases hstage <;> rfl
  | _ => rfl

theorem all_locks {flight : List (Work δ)} {flight' : List Platform.Work}
    (h : List.Forall₂ (Shows lib) flight flight') (productId : Int) :
    (flight.all fun w => productId ∉ w.locks) = flight'.all fun w => productId ∉ w.locks := by
  induction h with
  | nil => rfl
  | cons hw _ ih => rw [List.all_cons, List.all_cons, hw.locks, ih]

theorem Related.lockFree (h : Related lib d s) (move : Inventory.Move) :
    d.lockFree move = s.lockFree move := by
  cases move with
  | lock productId => exact all_locks h.flight productId
  | _ => rfl

/-- A payload without items fits when its order's id does. -/
theorem fits_of_orderId {p : Payload} (hid : Orders.integer p.orderId = some p.orderId)
    (hitems : p.items = []) : p.Fits where
  orderId := hid
  items item hitem := by
    rw [hitems] at hitem
    cases hitem

theorem answer_fits {p p' : Payload} {ret : Ret} (h : p.Fits)
    (hp : Platform.answer p ret = some p') : p'.Fits := by
  unfold Platform.answer at hp
  split at hp
  · cases hp
    split_ifs
    · exact ⟨h.orderId, h.items⟩
    · exact fits_of_orderId h.orderId rfl
  · split_ifs at hp
    cases hp
    exact fits_of_orderId h.orderId rfl
  · cases hp

theorem item_fits {item : Orders.OrderItemIn} {stored : Orders.OrderItem}
    (h : Orders.newItem item = some stored) : (Item.mk stored.productId stored.quantity).Fits := by
  simp only [Orders.newItem, bind, Option.bind_eq_some_iff] at h
  obtain ⟨productId, hproduct, quantity, hquantity, price, -, heq⟩ := h
  cases heq
  have hsame := Orders.integer_eq_some hproduct
  have hsame' := Orders.integer_eq_some hquantity
  subst hsame hsame'
  exact ⟨hproduct, hquantity⟩

theorem orderCreated_fits {customerId : Int} {payload : OrderCreate} {order : Orders.Order}
    (h : Orders.newOrder customerId payload = some order) {id : Int}
    (hid : Orders.integer id = some id) : (Orders.orderCreated id order).Fits where
  orderId := hid
  items item hitem := by
    obtain ⟨stored, hstored, rfl⟩ := List.mem_map.mp hitem
    obtain ⟨wanted, hnew⟩ := Orders.exists_newItem h hstored
    exact item_fits hnew

/-- The work in flight is in no table. -/
theorem SameTables.withFlight (h : SameTables d s) {flight : List (Work δ)}
    {flight' : List Platform.Work} (hflight : List.Forall₂ (Shows lib) flight flight') :
    Related lib { d with flight } { s with flight := flight' } :=
  { orders := h.orders
    stock := h.stock
    shipments := h.shipments
    ids := h.ids
    shipped := h.shipped
    flight := hflight }

theorem related_empty : Related lib .empty .empty :=
  { orders := rfl
    stock := rfl
    shipments := rfl
    ids := fun _ _ h => by cases h
    shipped := fun _ _ h => by cases h
    flight := .nil }

theorem SameTables.writeStatus (h : SameTables d s) (id : Int) (status : OrderStatus) :
    SameTables { d with orders := Orders.writeStatus d.orders id status }
      { s with orders := Orders.writeStatus s.orders id status } where
  orders := by rw [h.orders]
  stock := h.stock
  shipments := h.shipments
  ids j order hget := by
    dsimp only [Orders.writeStatus] at hget
    rw [SerialTable.get?_modify] at hget
    split_ifs at hget
    · obtain ⟨old, hold, -⟩ := Option.map_eq_some_iff.mp hget
      exact h.ids j old hold
    · exact h.ids j order hget
  shipped := h.shipped

theorem SameTables.insertOrder (h : SameTables d s)
    (hnext : Orders.integer s.orders.next = some s.orders.next) (order : Orders.Order) :
    SameTables { d with orders := d.orders.insert order }
      { s with orders := s.orders.insert order } where
  orders := by rw [h.orders]
  stock := h.stock
  shipments := h.shipments
  ids j row hget := by
    dsimp only at hget
    rw [SerialTable.get?_insert] at hget
    split_ifs at hget with hj
    · rwa [hj]
    · exact h.ids j row hget
  shipped := h.shipped

theorem SameTables.insertShipment (h : SameTables d s) {shipment : Shipment}
    (hid : Orders.integer shipment.orderId = some shipment.orderId) :
    SameTables { d with shipments := d.shipments.insert shipment }
      { s with shipments := s.shipments.insert shipment } where
  orders := h.orders
  stock := h.stock
  shipments := by rw [h.shipments]
  ids := h.ids
  shipped j row hget := by
    dsimp only at hget
    rw [SerialTable.get?_insert] at hget
    split_ifs at hget
    · cases hget
      exact hid
    · exact h.shipped j row hget

theorem SameTables.updateStatus (h : SameTables d s) (id : Int) (status : ShipmentStatus) :
    SameTables { d with shipments := Shipping.updateStatus d.shipments id status }
      { s with shipments := Shipping.updateStatus s.shipments id status } where
  orders := h.orders
  stock := h.stock
  shipments := by rw [h.shipments]
  ids := h.ids
  shipped j row hget := by
    dsimp only [Shipping.updateStatus] at hget
    rw [SerialTable.get?_modify] at hget
    split_ifs at hget
    · obtain ⟨old, hold, rfl⟩ := Option.map_eq_some_iff.mp hget
      exact h.shipped j old hold
    · exact h.shipped j row hget

theorem SameTables.setStock (h : SameTables d s) (stock : Inventory.Store) :
    SameTables { d with stock } { s with stock } :=
  ⟨h.orders, rfl, h.shipments, h.ids, h.shipped⟩

theorem Carries.exchange (hm : Carries lib m l) :
    List.Forall₂ (Shows lib) (exchange m) (Platform.exchange l) := by
  have hbound : ∀ q : Queue, m.routingKey ∈ q.handlers.map EventType.value ↔
      l.payload.eventType ∈ q.handlers := by
    intro q
    rw [hm.routingKey]
    exact List.mem_map_of_injective fun a b h => EventType.value_injective a b h
  unfold Bus.exchange Platform.exchange
  simp only [hbound]
  generalize queues.filter _ = bound
  induction bound with
  | nil => exact .nil
  | cons q bound ih => exact .cons (.queued hm) ih

/-- An event that a service publishes is one that can be read again. -/
theorem carries_create {p : Payload} (hp : p.Fits) (stamp : Stamp) :
    Carries lib ⟨lib.modelDumpJson (create p.eventType p.dict stamp), p.eventType.value, some 0⟩
      ⟨p, 0⟩ where
  body := ⟨stamp.1, stamp.2, lib.validate_dump (Event.create p stamp.1 stamp.2)⟩
  routingKey := rfl
  retry := rfl
  nonneg := Int.le_refl 0
  fits := hp

theorem rel_publish {p : Payload} (hp : p.Fits) (stamp : Stamp) :
    List.Forall₂ (Shows lib) (publish lib (create p.eventType p.dict stamp))
      (Platform.exchange ⟨p, 0⟩) := (carries_create hp stamp).exchange

theorem Carries.failed (hm : Carries lib m l) (q : Queue) :
    Shows lib (failed q m) (Platform.failed q l) := by
  unfold Bus.failed Platform.failed
  simp only [hm.retry]
  have hnonneg := hm.nonneg
  by_cases hlast : l.retry + 1 ≥ maxRetries
  · rw [if_pos hlast, if_pos hlast]
    exact .dead hm
  · have hbelow : l.retry + 1 < 3 := Int.lt_of_not_ge hlast
    have hheader : InHeader (l.retry + 1) := ⟨by omega, by omega⟩
    rw [if_neg hlast, if_neg hlast, if_pos hheader]
    exact .backoff ⟨hm.body, hm.routingKey, rfl, by dsimp only; omega, hm.fits⟩

theorem target_value (p : Payload) : target p.eventType.value = Platform.target p := by
  cases p <;> rfl

theorem Carries.readOrder (h : SameTables d s) (hm : Carries lib m l) :
    ∃ new, readOrder lib d m = some new ∧
      List.Forall₂ (Shows lib) new (Platform.readOrder s l) := by
  obtain ⟨timestamp, requestId, hbody⟩ := hm.body
  unfold Bus.readOrder Platform.readOrder
  simp only [hbody, Event.envelope, Event.create, target_value, bind, Option.bind_some]
  cases Platform.target l.payload with
  | none => exact ⟨[], rfl, .nil⟩
  | some status =>
    simp only [orderId_dict lib hm.fits, Option.bind_some, h.orders]
    cases s.orders.get? l.payload.orderId with
    | none => exact ⟨[], rfl, .nil⟩
    | some order =>
      refine ⟨_, rfl, ?_⟩
      dsimp only
      split_ifs
      · exact .nil
      · exact rel_singleton (.running hm .setting)

theorem shows_shipmentCreated {shipment : Int × Shipment} (stamp : Stamp)
    (hl : l.payload.Fits) (h : shipment.2.orderId = l.payload.orderId) :
    Stage.Shows l (.announcing (shipmentCreated (.int l.payload.orderId) shipment stamp) : Stage δ)
      (.announcing (Shipping.shipmentCreated shipment)) := by
  have hfits : (Shipping.shipmentCreated shipment).Fits := by
    refine fits_of_orderId ?_ rfl
    show Orders.integer shipment.2.orderId = some shipment.2.orderId
    rw [h]
    exact hl.orderId
  rw [← h]
  exact .announcing hfits

theorem Carries.readShipment (h : SameTables d s) (hm : Carries lib m l) (stamp : Stamp) :
    ∃ new, readShipment lib d stamp m = some new ∧
      List.Forall₂ (Shows lib) new (Platform.readShipment s l) := by
  obtain ⟨timestamp, requestId, hbody⟩ := hm.body
  have hid := hm.fits.orderId
  obtain ⟨p, retry⟩ := l
  unfold Bus.readShipment Platform.readShipment
  simp only [hbody, Event.envelope, Event.create, get?_order_id, lib.integer_int, hid, bind,
    Option.bind_some, h.shipments]
  cases p with
  | stockReserved orderId items =>
    simp only [Payload.eventType, EventType.value, Payload.orderId, if_true]
    cases hfound : Shipping.existing s.shipments orderId with
    | some shipment =>
      have horder := (Shipping.existing_eq_some hfound).1
      exact ⟨_, rfl, rel_singleton (.running hm (shows_shipmentCreated stamp hm.fits horder))⟩
    | none => exact ⟨_, rfl, rel_singleton (.running hm .unshipped)⟩
  | _ => exact ⟨[], rfl, .nil⟩

/-- What the inventory service reads is the call it makes, with the values of its answer. -/
theorem Carries.ask (hm : Carries lib m l) :
    (call l.payload = none ∧ ask lib m = some none) ∨
      ∃ asked c, ask lib m = some (some (asked, c)) ∧ call l.payload = some c ∧
        ∀ ret, answer asked ret =
          (Platform.answer l.payload ret).map fun p => (p.eventType, p.dict) := by
  obtain ⟨timestamp, requestId, hbody⟩ := hm.body
  have hfits := hm.fits
  have hid := hfits.orderId
  obtain ⟨p, retry⟩ := l
  unfold Bus.ask
  simp only [hbody, Event.envelope, Event.create, get?_order_id, lib.integer_int, hid, bind,
    Option.bind_some]
  cases p with
  | orderCreated orderId customerId totalAmount items =>
    have hitems : ((Payload.orderCreated orderId customerId totalAmount items).dict : Json δ).get?
        "items" = some (.arr (items.map Item.dict)) := rfl
    have hlines : lib.items (.arr (items.map Item.dict)) = some items :=
      items_dict lib hfits.items
    simp only [Payload.eventType, EventType.value, if_true, hitems, Option.bind_some,
      hlines]
    refine .inr ⟨_, _, rfl, rfl, fun ret => ?_⟩
    cases ret with
    | reserved ok => cases ok <;> rfl
    | _ => rfl
  | orderCancelled orderId customerId =>
    refine .inr ⟨_, _, rfl, rfl, fun ret => ?_⟩
    cases ret with
    | released ids =>
      simp only [answer, Platform.answer]
      split_ifs <;> rfl
    | _ => rfl
  | _ => exact .inl ⟨rfl, rfl⟩

theorem rel_afterStock (hm : Carries lib m l) {asked : Asked δ} {c : Call} (stamp : Stamp)
    (hcall : call l.payload = some c)
    (hanswer : ∀ ret, answer asked ret =
      (Platform.answer l.payload ret).map fun p => (p.eventType, p.dict)) (phase : Phase) :
    List.Forall₂ (Shows lib) (afterStock stamp m asked c phase) (Platform.afterStock l phase) := by
  cases phase with
  | finished ret =>
    simp only [afterStock, Platform.afterStock, hanswer ret]
    cases hp : Platform.answer l.payload ret with
    | none => exact .nil
    | some p => exact rel_singleton (.running hm (.announcing (answer_fits hm.fits hp)))
  | _ => exact rel_singleton (.running hm (.stock hcall hanswer))

theorem rel_stockStep (h : SameTables d s) (hfree : ∀ move, d.lockFree move = s.lockFree move)
    (hm : Carries lib m l) {asked : Asked δ} {c : Call} (stamp : Stamp)
    (hcall : call l.payload = some c)
    (hanswer : ∀ ret, answer asked ret =
      (Platform.answer l.payload ret).map fun p => (p.eventType, p.dict)) (phase : Phase)
    (move : Inventory.Move) :
    Option.Rel (SameStep lib) (stockStep d stamp m asked c phase move)
      (Platform.stockStep s l phase move) := by
  unfold stockStep Platform.stockStep
  simp only [hcall, hfree, h.stock]
  split_ifs
  · cases Inventory.advance s.stock c phase move with
    | none => exact .none
    | some r =>
      exact .some ⟨h.setStock r.2, rel_afterStock hm stamp hcall hanswer r.1⟩
  · exact .none

/-- The work stays as it is, and so do the tables. -/
theorem sameStep {new : List (Work δ)} {new' : List Platform.Work} (h : SameTables d s)
    (hnew : List.Forall₂ (Shows lib) new new') :
    Option.Rel (SameStep lib) (some (d, new)) (some (s, new')) := .some ⟨h, hnew⟩

/-- The handler of a message of the platform does what the platform does with its payload. -/
theorem handle_rel (h : SameTables d s) (hfree : ∀ move, d.lockFree move = s.lockFree move)
    (hm : Carries lib m l) (q : Queue) (stamp : Stamp) (move : Move) :
    Option.Rel (SameStep lib) (handle lib stamp d m q move)
      (Platform.advance s (.queued q l) move) := by
  cases move with
  | fail => cases q <;> exact sameStep h (rel_singleton (hm.failed _))
  | ship courier year => cases q <;> exact .none
  | go =>
    cases q with
    | order =>
      obtain ⟨new, hread, hnew⟩ := hm.readOrder h
      simp only [handle, orFailed, hread]
      exact sameStep h hnew
    | shipping =>
      obtain ⟨new, hread, hnew⟩ := hm.readShipment h stamp
      simp only [handle, orFailed, hread]
      exact sameStep h hnew
    | inventory =>
      rcases hm.ask with ⟨hcall, hask⟩ | ⟨asked, c, hask, hcall, -⟩
      · simp only [handle, Platform.advance, hask, hcall, if_true]
        exact sameStep h .nil
      · simp only [handle, Platform.advance, hask, hcall]
        exact .none
  | stock move =>
    cases q with
    | inventory =>
      rcases hm.ask with ⟨hcall, hask⟩ | ⟨asked, c, hask, hcall, hanswer⟩
      · simp only [handle, Platform.advance, Platform.stockStep, hask, hcall]
        exact .none
      · simp only [handle, Platform.advance, hask]
        exact rel_stockStep h hfree hm stamp hcall hanswer .ready move
    | _ => exact .none

theorem advance_queued (h : SameTables d s) (hfree : ∀ move, d.lockFree move = s.lockFree move)
    (hm : Carries lib m l) (q : Queue) (stamp : Stamp) (move : Move) :
    Option.Rel (SameStep lib) (advance lib stamp d (.queued q m) move)
      (Platform.advance s (.queued q l) move) := by
  have hhandle : advance lib stamp d (.queued q m) move = handle lib stamp d m q move := by
    simp only [advance, hm.retry]
  rw [hhandle]
  exact handle_rel h hfree hm q stamp move

theorem advance_running (h : SameTables d s) (hfree : ∀ move, d.lockFree move = s.lockFree move)
    (hm : Carries lib m l) {stage : Stage δ} {stage' : Platform.Stage}
    (hstage : stage.Shows l stage') (q : Queue) (stamp : Stamp) (move : Move) :
    Option.Rel (SameStep lib) (advance lib stamp d (.running q m stage) move)
      (Platform.advance s (.running q l stage') move) := by
  cases hstage with
  | setting =>
    cases move with
    | fail => cases q <;> exact sameStep h (rel_singleton (hm.failed _))
    | go =>
      cases q with
      | order => exact .some ⟨h.writeStatus l.payload.orderId _, .nil⟩
      | _ => exact .none
    | _ => cases q <;> exact .none
  | stock hcall hanswer =>
    cases move with
    | fail => cases q <;> exact sameStep h (rel_singleton (hm.failed _))
    | stock move =>
      cases q with
      | inventory => exact rel_stockStep h hfree hm stamp hcall hanswer _ move
      | _ => exact .none
    | _ => cases q <;> exact .none
  | unshipped =>
    cases move with
    | fail => cases q <;> exact sameStep h (rel_singleton (hm.failed _))
    | ship courier year =>
      cases q with
      | shipping =>
        simp only [advance, Platform.advance, h.shipments]
        split_ifs
        · cases hinsert : Shipping.insertShipment s.shipments l.payload.orderId courier year with
          | none => exact sameStep h (rel_singleton (hm.failed _))
          | some r =>
            obtain ⟨shipment, shipments⟩ := r
            obtain ⟨-, horder, -, rfl⟩ := Shipping.insertShipment_eq_some hinsert
            have hid : Orders.integer shipment.2.orderId = some shipment.2.orderId := by
              rw [horder]
              exact hm.fits.orderId
            have htables := h.insertShipment hid
            rw [h.shipments] at htables
            exact .some ⟨htables, rel_singleton (.running hm (.inserted horder))⟩
        · exact .none
      | _ => exact .none
    | _ => cases q <;> exact .none
  | inserted horder =>
    cases move with
    | fail => cases q <;> exact sameStep h (rel_singleton (hm.failed _))
    | go =>
      cases q with
      | shipping =>
        exact sameStep h
          (rel_singleton (.running hm (shows_shipmentCreated stamp hm.fits horder)))
      | _ => exact .none
    | _ => cases q <;> exact .none
  | announcing hp =>
    cases move with
    | fail => cases q <;> exact sameStep h (rel_singleton (hm.failed _))
    | go => cases q <;> exact sameStep h (rel_publish hp _)
    | _ => cases q <;> exact .none

theorem advance_rel (h : SameTables d s) (hfree : ∀ move, d.lockFree move = s.lockFree move)
    {w : Work δ} {w' : Platform.Work} (hw : Shows lib w w') (stamp : Stamp) (move : Move) :
    Option.Rel (SameStep lib) (advance lib stamp d w move) (Platform.advance s w' move) := by
  cases hw with
  | @cancelling id order hid =>
    cases move with
    | go =>
      have hfits : (Orders.orderCancelled id order).Fits := fits_of_orderId hid rfl
      exact .some ⟨h.writeStatus id .cancelled, rel_singleton (.requested hfits)⟩
    | fail => exact sameStep h .nil
    | _ => exact .none
  | requested hp =>
    cases move with
    | go => exact sameStep h (rel_publish hp _)
    | fail => exact sameStep h .nil
    | _ => exact .none
  | backoff hm =>
    cases move with
    | go => exact sameStep h hm.exchange
    | _ => exact .none
  | dead hm => cases move <;> exact .none
  | queued hm => exact advance_queued h hfree hm _ stamp move
  | running hm hstage => exact advance_running h hfree hm hstage _ stamp move

theorem step_rel (h : Related lib d s) (a : Label × Stamp) (hid : DrawsFit d.orders a.1) :
    Option.Rel (Related lib) (step lib d a) (Platform.step s a.1) := by
  obtain ⟨a, stamp⟩ := a
  cases a with
  | createOrder customerId payload =>
    simp only [step, Platform.step, h.orders]
    cases hnew : Orders.newOrder customerId payload with
    | none => exact .some h
    | some order =>
      have hnext : Orders.integer s.orders.next = some s.orders.next := h.orders ▸ hid
      have htables := h.insertOrder hnext order
      rw [h.orders] at htables
      have hfits := orderCreated_fits hnew hnext
      exact .some (htables.withFlight (List.rel_append h.flight (rel_singleton (.requested hfits))))
  | cancelOrder caller id =>
    simp only [step, Platform.step, h.orders]
    cases hload : Orders.loadCancellable s.orders caller id with
    | error e => exact .some h
    | ok order =>
      have hrow := (Orders.loadCancellable_eq_ok hload).1
      have hid := h.ids id order hrow
      have htables : SameTables { d with orders := s.orders } s := h.orders ▸ h.toSameTables
      exact .some (htables.withFlight (List.rel_append h.flight (rel_singleton (.cancelling hid))))
  | createProduct id payload =>
    simp only [step, Platform.step, h.stock]
    cases Inventory.createProduct s.stock id payload with
    | none => exact .some h
    | some r => exact .some ⟨⟨h.orders, rfl, h.shipments, h.ids, h.shipped⟩, h.flight⟩
  | updateShipment id status =>
    simp only [step, Platform.step, h.shipments]
    cases hget : s.shipments.get? id with
    | none => exact .some h
    | some shipment =>
      have htables := h.updateStatus id status
      refine .some ⟨⟨h.orders, h.stock, rfl, h.ids, htables.shipped⟩,
        List.rel_append h.flight ?_⟩
      split_ifs
      · have hfits : (Shipping.shipmentDelivered shipment).Fits :=
          fits_of_orderId (h.shipped id shipment hget) rfl
        exact rel_singleton (.requested hfits)
      · exact .nil
  | work i move =>
    have hi := Pool.rel_getElem? h.flight i
    simp only [step, Platform.step]
    generalize d.flight[i]? = o, s.flight[i]? = o' at hi ⊢
    cases hi with
    | none => exact .none
    | some hshows =>
      have hadvance := advance_rel h.toSameTables h.lockFree hshows stamp move
      dsimp only
      generalize advance lib stamp d _ move = r, Platform.advance s _ move = r' at hadvance ⊢
      cases hadvance with
      | none => exact .none
      | some hr =>
        exact .some (hr.1.withFlight (Pool.rel_replace h.flight i hr.2))

end

section

variable (lib : Libraries δ)

/-- Neither `_handle` nor the handler of the queue raises while it reads the message. -/
def Readable (d : State δ) (m : Mail) (q : Queue) : Prop :=
  m.retry.isSome ∧
    match q with
    | .order => (readOrder lib d m).isSome
    | .inventory => (ask lib m).isSome
    | .shipping => ∀ stamp, (readShipment lib d stamp m).isSome

theorem Related.readable {lib : Libraries δ} {d : State δ} {s : Platform.State}
    (h : Related lib d s) {q : Queue} {m : Mail} (hm : .queued q m ∈ d.flight) :
    Readable lib d m q := by
  obtain ⟨w', -, hshows⟩ := Pool.rel_mem h.flight hm
  cases hshows with
  | queued hcarries =>
    refine ⟨by rw [hcarries.retry]; rfl, ?_⟩
    cases q with
    | order =>
      obtain ⟨new, hread, -⟩ := hcarries.readOrder h.toSameTables
      simp [hread]
    | inventory =>
      rcases hcarries.ask with ⟨-, hask⟩ | ⟨asked, c, hask, -⟩ <;> simp [hask]
    | shipping =>
      intro stamp
      obtain ⟨new, hread, -⟩ := hcarries.readShipment h.toSameTables stamp
      simp [hread]

/-- The services on the bus do, text by text, what the platform does payload by payload, as long
as the ids of orders fit their column: the same steps are possible, the tables are the same after
them, and no handler raises over what it reads. -/
theorem bus_refines {as : List (Label × Stamp)}
    (hids : Transition.Meets (step lib) (fun d a => DrawsFit d.orders a.1) .empty as) :
    Option.Rel (Related lib) (Transition.exec (step lib) .empty as)
        (Transition.exec Platform.step .empty (as.map Prod.fst)) ∧
      ∀ d ∈ Transition.exec (step lib) .empty as,
        ∀ q m, .queued q m ∈ d.flight → Readable lib d m q := by
  have hrel : Option.Rel (Related lib) (Transition.exec (step lib) .empty as)
      (Transition.exec Platform.step .empty (as.map Prod.fst)) :=
    Transition.exec_rel_of_meets (Related lib) Prod.fst (fun _ _ a h hid => step_rel h a hid)
      related_empty hids
  refine ⟨hrel, ?_⟩
  intro d hd q m hm
  rw [Option.mem_def.mp hd] at hrel
  generalize Transition.exec Platform.step .empty (as.map Prod.fst) = o at hrel
  cases hrel with
  | some h => exact h.readable hm

end

/-- The reservation of an order fails once and is tried again. -/
def retriedOnBus : List (Label × Stamp) :=
  [(.createProduct 1 Inventory.widget, "", none), (.createOrder 7 Orders.oneItem, "", none),
    (.work 0 .go, "", none), (.work 0 (.stock .read), "", none), (.work 0 .fail, "", none),
    (.work 0 .go, "", none), (.work 0 (.stock .read), "", none)]

theorem bus_refines_retriedOnBus :
    ∃ d s, Transition.exec (step plainLibraries) .empty retriedOnBus = some d ∧
      Transition.exec Platform.step .empty (retriedOnBus.map Prod.fst) = some s ∧
      Related plainLibraries d s := by
  have hrun : (Transition.exec (step plainLibraries) .empty retriedOnBus).isSome := by
    decide +kernel
  obtain ⟨d, hd⟩ := Option.isSome_iff_exists.mp hrun
  have hids : Transition.Meets (step plainLibraries) (fun d a => DrawsFit d.orders a.1) .empty
      retriedOnBus := by decide +kernel
  have hrel := (bus_refines plainLibraries hids).1
  rw [hd] at hrel
  generalize hs : Transition.exec Platform.step .empty (retriedOnBus.map Prod.fst) = o at hrel
  cases hrel with
  | @some _ s h => exact ⟨d, s, hd, rfl, h⟩

end OrderMesh.Platform.Bus
