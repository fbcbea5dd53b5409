namespace OrderMesh

/-- How an operation on the broker or the database ends: it returns, it raises and nothing
happened, or it raises although it took effect. -/
inductive Reply
  | ok
  | refused
  | unknown
  deriving DecidableEq

inductive EventType
  | orderCreated
  | orderCancelled
  | stockReserved
  | stockUnavailable
  | stockReleased
  | shipmentCreated
  | shipmentDelivered
  deriving DecidableEq

/-- The routing key of an event type. -/
def EventType.value : EventType → String
  | .orderCreated => "OrderCreated"
  | .orderCancelled => "OrderCancelled"
  | .stockReserved => "StockReserved"
  | .stockUnavailable => "StockUnavailable"
  | .stockReleased => "StockReleased"
  | .shipmentCreated => "ShipmentCreated"
  | .shipmentDelivered => "ShipmentDelivered"

theorem EventType.value_injective (a b : EventType) (h : a.value = b.value) : a = b := by
  cases a <;> cases b <;> first | rfl | exact absurd h (by decide)

/-- One line of the `items` of a payload. -/
structure Item where
  productId : Int
  quantity : Int
  deriving DecidableEq

inductive Payload
  | orderCreated (orderId customerId totalAmount : Int) (items : List Item)
  | orderCancelled (orderId customerId : Int)
  | stockReserved (orderId : Int) (items : List Item)
  | stockUnavailable (orderId : Int)
  | stockReleased (orderId : Int) (productIds : List Int)
  | shipmentCreated (orderId shipmentId : Int) (trackingNumber courierName : String)
  | shipmentDelivered (orderId : Int) (trackingNumber : String)
  deriving DecidableEq

def Payload.eventType : Payload → EventType
  | .orderCreated .. => .orderCreated
  | .orderCancelled .. => .orderCancelled
  | .stockReserved .. => .stockReserved
  | .stockUnavailable .. => .stockUnavailable
  | .stockReleased .. => .stockReleased
  | .shipmentCreated .. => .shipmentCreated
  | .shipmentDelivered .. => .shipmentDelivered

/-- `payload["order_id"]`, which every producer sets. -/
def Payload.orderId : Payload → Int
  | .orderCreated orderId .. => orderId
  | .orderCancelled orderId .. => orderId
  | .stockReserved orderId .. => orderId
  | .stockUnavailable orderId => orderId
  | .stockReleased orderId .. => orderId
  | .shipmentCreated orderId .. => orderId
  | .shipmentDelivered orderId .. => orderId

/-- The envelope of every message on the bus. -/
structure Event where
  eventType : String
  timestamp : String
  requestId : Option String
  payload : Payload
  deriving DecidableEq

/-- `Event.create`: the request id is the one of the current context. -/
def Event.create (payload : Payload) (timestamp : String) (requestId : Option String) : Event where
  eventType := payload.eventType.value
  timestamp := timestamp
  requestId := requestId
  payload := payload

end OrderMesh
