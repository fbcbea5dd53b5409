import OrderMesh.Library.Json
import OrderMesh.Order.Schemas
import OrderMesh.Shared.Events.Schema

namespace OrderMesh

/-- An event as it is sent: its payload is any value of JSON, `δ` its fractional numbers. -/
structure Envelope (δ : Type) where
  eventType : String
  timestamp : String
  requestId : Option String
  payload : Json δ

variable {δ : Type}

def Item.dict (item : Item) : Json δ :=
  .obj [("product_id", .int item.productId), ("quantity", .int item.quantity)]

structure Item.Fits (item : Item) : Prop where
  productId : Orders.integer item.productId = some item.productId
  quantity : Orders.integer item.quantity = some item.quantity

/-- `payload["items"]`, which two of the producers set. -/
def Payload.items : Payload → List Item
  | .orderCreated _ _ _ items => items
  | .stockReserved _ items => items
  | _ => []

/-- The keyword arguments that the services call `Event.create` with. -/
def Payload.dict : Payload → Json δ
  | .orderCreated orderId customerId totalAmount items =>
      .obj [("order_id", .int orderId), ("customer_id", .int customerId),
        ("total_amount", .str (Orders.amount totalAmount).text),
        ("items", .arr (items.map Item.dict))]
  | .orderCancelled orderId customerId =>
      .obj [("order_id", .int orderId), ("customer_id", .int customerId)]
  | .stockReserved orderId items =>
      .obj [("order_id", .int orderId), ("items", .arr (items.map Item.dict))]
  | .stockUnavailable orderId => .obj [("order_id", .int orderId)]
  | .stockReleased orderId productIds =>
      .obj [("order_id", .int orderId), ("product_ids", .arr (productIds.map .int))]
  | .shipmentCreated orderId shipmentId trackingNumber courierName =>
      .obj [("order_id", .int orderId), ("shipment_id", .int shipmentId),
        ("tracking_number", .str trackingNumber), ("courier_name", .str courierName)]
  | .shipmentDelivered orderId trackingNumber =>
      .obj [("order_id", .int orderId), ("tracking_number", .str trackingNumber)]

def Event.envelope (e : Event) : Envelope δ :=
  ⟨e.eventType, e.timestamp, e.requestId, e.payload.dict⟩

/-- What the services take from pydantic and from the database driver. -/
structure Libraries (δ : Type) where
  /-- `Event.model_dump_json` -/
  modelDumpJson : Envelope δ → String
  /-- `Event.model_validate_json`; `none` when it raises -/
  modelValidateJson : String → Option (Envelope δ)
  /-- A value for an integer column; `none` when the driver raises. -/
  integer : Json δ → Option Int
  validate_dump : ∀ e : Event, modelValidateJson (modelDumpJson e.envelope) = some e.envelope
  integer_int : ∀ n, integer (.int n) = Orders.integer n

namespace Libraries

variable (lib : Libraries δ)

/-- `payload["order_id"]`, used as a number. -/
def orderId (payload : Json δ) : Option Int := do lib.integer (← payload.get? "order_id")

/-- `item["product_id"]` and `item["quantity"]`. -/
def item (value : Json δ) : Option Item := do
  let productId ← lib.integer (← value.get? "product_id")
  let quantity ← lib.integer (← value.get? "quantity")
  return ⟨productId, quantity⟩

/-- A payload's items, of which only lists of dictionaries are read. -/
def items : Json δ → Option (List Item)
  | .arr values => values.mapM lib.item
  | _ => none

end Libraries

/-- The numbers that the services read from the payload fit their columns. -/
structure Payload.Fits (p : Payload) : Prop where
  orderId : Orders.integer p.orderId = some p.orderId
  items : ∀ item ∈ p.items, item.Fits

theorem get?_order_id (p : Payload) :
    (p.dict : Json δ).get? "order_id" = some (.int p.orderId) := by
  cases p <;> rfl

section

variable (lib : Libraries δ)

theorem orderId_dict {p : Payload} (h : p.Fits) : lib.orderId p.dict = some p.orderId := by
  rw [Libraries.orderId, get?_order_id]
  exact (lib.integer_int p.orderId).trans h.orderId

theorem item_dict {item : Item} (h : item.Fits) : lib.item item.dict = some item := by
  have hproduct : (item.dict : Json δ).get? "product_id" = some (.int item.productId) := rfl
  have hquantity : (item.dict : Json δ).get? "quantity" = some (.int item.quantity) := rfl
  simp only [Libraries.item, hproduct, hquantity, bind, Option.bind_some, lib.integer_int,
    h.productId, h.quantity]
  rfl

theorem items_dict {items : List Item} (h : ∀ item ∈ items, item.Fits) :
    lib.items (.arr (items.map Item.dict)) = some items := by
  unfold Libraries.items
  dsimp only
  induction items with
  | nil => rfl
  | cons item items ih =>
    rw [List.map_cons, List.mapM_cons, item_dict lib (h item List.mem_cons_self),
      ih fun item hitem => h item (List.mem_cons_of_mem _ hitem)]
    rfl

end

namespace Envelope

def value (e : Envelope Empty) : Json Empty :=
  .obj [("event_type", .str e.eventType), ("timestamp", .str e.timestamp),
    ("request_id", e.requestId.elim .null .str), ("payload", e.payload)]

def ofValue (value : Json Empty) : Option (Envelope Empty) :=
  match value.get? "event_type", value.get? "timestamp", value.get? "request_id",
      value.get? "payload" with
  | some (.str eventType), some (.str timestamp), some .null, some payload =>
      some ⟨eventType, timestamp, none, payload⟩
  | some (.str eventType), some (.str timestamp), some (.str requestId), some payload =>
      some ⟨eventType, timestamp, some requestId, payload⟩
  | _, _, _, _ => none

theorem ofValue_value (e : Envelope Empty) : ofValue e.value = some e := by
  obtain ⟨eventType, timestamp, requestId, payload⟩ := e
  cases requestId <;> rfl

end Envelope

/-- Libraries for which an event is the text that `json` makes of it. -/
def plainLibraries : Libraries Empty where
  modelDumpJson e := Json.dumps (fun x : Empty => x.elim) e.value
  modelValidateJson text := (Json.loads text).bind Envelope.ofValue
  integer
    | .int n => Orders.integer n
    | _ => none
  validate_dump e := by
    rw [Json.loads_dumps, Json.defaulted_self]
    exact Envelope.ofValue_value e.envelope
  integer_int _ := rfl

end OrderMesh
