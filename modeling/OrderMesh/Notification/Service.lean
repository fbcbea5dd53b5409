import OrderMesh.Library.Decimal
import OrderMesh.Library.SerialTable
import OrderMesh.Shared.Events.Schema

namespace OrderMesh.Notifications

/-- A row of `notifications`; its payload is the JSON text of the event's. -/
structure Notification where
  type : String
  recipient : String
  payload : Payload
  status : String
  orderId : Option Int
  deriving DecidableEq

/-- `payload.get("customer_id")` -/
def customerId : Payload → Option Int
  | .orderCreated _ customerId _ _ => some customerId
  | .orderCancelled _ customerId => some customerId
  | _ => none

def address (customer : String) : String := "customer-" ++ customer ++ "@example.com"

def recipient (p : Payload) : String :=
  match customerId p with
  | some customerId => address (toString customerId)
  | none => address "unknown"

def sendNotification (notifications : SerialTable Notification) (type recipient : String)
    (payload : Payload) (orderId : Option Int) : SerialTable Notification :=
  notifications.insert ⟨type, recipient, payload, "SENT", orderId⟩

/-- The four handlers differ in the type of the notification. -/
def handle (type : String) (notifications : SerialTable Notification) (p : Payload) :
    SerialTable Notification :=
  sendNotification notifications type (recipient p) p (some p.orderId)

def onOrderCreated := handle "Order Confirmation"

def onStockReserved := handle "Stock Reserved"

def onShipmentCreated := handle "Shipment Created"

def onShipmentDelivered := handle "Shipment Delivered"

/-- The handlers of the consumer; its queue is bound to their event types. -/
def handler : EventType → Option (SerialTable Notification → Payload → SerialTable Notification)
  | .orderCreated => some onOrderCreated
  | .stockReserved => some onStockReserved
  | .shipmentCreated => some onShipmentCreated
  | .shipmentDelivered => some onShipmentDelivered
  | _ => none

theorem handler_eq_some {t : EventType}
    {h : SerialTable Notification → Payload → SerialTable Notification} (ht : handler t = some h) :
    ∃ type, h = handle type := by
  cases t <;> cases ht
  · exact ⟨_, rfl⟩
  · exact ⟨_, rfl⟩
  · exact ⟨_, rfl⟩
  · exact ⟨_, rfl⟩

/-- Of the events it consumes only `OrderCreated` names the customer. -/
theorem customerId_isSome_iff {p : Payload} (h : (handler p.eventType).isSome) :
    (customerId p).isSome ↔ p.eventType = .orderCreated := by
  cases p with
  | orderCancelled => cases h
  | _ => simp [customerId, Payload.eventType]

theorem address_injective {s t : String} (h : address s = address t) : s = t := by
  unfold address at h
  simpa using h

/-- The default recipient is no customer's. -/
theorem address_unknown_ne (customerId : Int) :
    address "unknown" ≠ address (toString customerId) := by
  intro h
  exact Decimal.toString_ne (c := 'u') (by decide) (by decide) (by decide) customerId
    (address_injective h).symm

end OrderMesh.Notifications
