import Mathlib.Data.List.Basic
import OrderMesh.Library.FixedPoint
import OrderMesh.Library.Json
import OrderMesh.Order.Service

namespace OrderMesh.Orders

structure OrderItemOut where
  productId : Int
  quantity : Int
  price : FixedPoint
  deriving DecidableEq

structure OrderOut where
  id : Int
  customerId : Int
  totalAmount : FixedPoint
  status : String
  items : List OrderItemOut
  deriving DecidableEq

/-- A row of `orders` with its items; amounts are held in cents. -/
structure OrderRow where
  id : Int
  customerId : Int
  totalAmount : Int
  status : String
  items : List OrderItem
  deriving DecidableEq

/-- A dictionary of Python values; JSON does not know its decimals. -/
abbrev Value := Json FixedPoint

def itemDict (productId quantity : Int) (price : FixedPoint) : Value :=
  .obj [("product_id", .int productId), ("quantity", .int quantity), ("price", .other price)]

def orderDict (id customerId : Int) (totalAmount : FixedPoint) (status : String)
    (items : List Value) : Value :=
  .obj [("id", .int id), ("customer_id", .int customerId), ("total_amount", .other totalAmount),
    ("status", .str status), ("items", .arr items)]

def OrderItemOut.modelDump (item : OrderItemOut) : Value :=
  itemDict item.productId item.quantity item.price

def OrderOut.modelDump (order : OrderOut) : Value :=
  orderDict order.id order.customerId order.totalAmount order.status
    (order.items.map OrderItemOut.modelDump)

/-- An amount as its column holds it, with two decimals. -/
def amount (cents : Int) : FixedPoint := ⟨cents, 2⟩

def OrderItem.attributes (item : OrderItem) : Value :=
  itemDict item.productId item.quantity (amount item.price)

/-- What `from_attributes` finds in a row. -/
def OrderRow.attributes (order : OrderRow) : Value :=
  orderDict order.id order.customerId (amount order.totalAmount) order.status
    (order.items.map OrderItem.attributes)

/-- How values of the schemas' types are validated: one of the type itself is kept, and
a text becomes the decimal that it denotes. -/
structure Validation where
  int : Value → Option Int
  str : Value → Option String
  decimal : Value → Option FixedPoint
  int_int : ∀ n, int (.int n) = some n
  str_str : ∀ s, str (.str s) = some s
  decimal_other : ∀ d, decimal (.other d) = some d
  decimal_str : ∀ {s d}, FixedPoint.parse s = some d → decimal (.str s) = some d

namespace Validation

/-- Nothing but values of the types, and texts of decimals. -/
def plain : Validation where
  int
    | .int n => some n
    | _ => none
  str
    | .str s => some s
    | _ => none
  decimal
    | .other d => some d
    | .str s => FixedPoint.parse s
    | _ => none
  int_int _ := rfl
  str_str _ := rfl
  decimal_other _ := rfl
  decimal_str h := h

variable (p : Validation)

def orderItemOut (value : Value) : Option OrderItemOut := do
  let productId ← p.int (← value.get? "product_id")
  let quantity ← p.int (← value.get? "quantity")
  let price ← p.decimal (← value.get? "price")
  return ⟨productId, quantity, price⟩

def list {α : Type} (item : Value → Option α) : Value → Option (List α)
  | .arr items => items.mapM item
  | _ => none

/-- `OrderOut.model_validate`. -/
def orderOut (value : Value) : Option OrderOut := do
  let id ← p.int (← value.get? "id")
  let customerId ← p.int (← value.get? "customer_id")
  let totalAmount ← p.decimal (← value.get? "total_amount")
  let status ← p.str (← value.get? "status")
  let items ← list p.orderItemOut (← value.get? "items")
  return ⟨id, customerId, totalAmount, status, items⟩

end Validation

/-- The reply for a row. -/
def OrderItem.out (item : OrderItem) : OrderItemOut :=
  ⟨item.productId, item.quantity, amount item.price⟩

def OrderRow.out (order : OrderRow) : OrderOut where
  id := order.id
  customerId := order.customerId
  totalAmount := amount order.totalAmount
  status := order.status
  items := order.items.map OrderItem.out

/-- What a dump becomes when its text is read back. -/
def readBack : Value → Value := Json.defaulted FixedPoint.text

theorem mapM_eq_some {α β : Type} {f : α → Option β} {g : β → α} (h : ∀ b, f (g b) = some b)
    (bs : List β) : (bs.map g).mapM f = some bs := by
  induction bs with
  | nil => rfl
  | cons b bs ih => simp [h, ih]

namespace Validation

variable (p : Validation)

theorem orderItemOut_modelDump (item : OrderItemOut) :
    p.orderItemOut item.modelDump = some item := by
  have hid : item.modelDump.get? "product_id" = some (.int item.productId) := rfl
  have hquantity : item.modelDump.get? "quantity" = some (.int item.quantity) := rfl
  have hprice : item.modelDump.get? "price" = some (.other item.price) := rfl
  simp [orderItemOut, hid, hquantity, hprice, p.int_int, p.decimal_other]

theorem orderItemOut_readBack (item : OrderItemOut) :
    p.orderItemOut (readBack item.modelDump) = some item := by
  have hid : (readBack item.modelDump).get? "product_id" = some (.int item.productId) := rfl
  have hquantity : (readBack item.modelDump).get? "quantity" = some (.int item.quantity) := rfl
  have hprice : (readBack item.modelDump).get? "price" = some (.str item.price.text) := rfl
  simp [orderItemOut, hid, hquantity, hprice, p.int_int, p.decimal_str (item.price.parse_text)]

theorem orderOut_modelDump (order : OrderOut) : p.orderOut order.modelDump = some order := by
  have hid : order.modelDump.get? "id" = some (.int order.id) := rfl
  have hcustomer : order.modelDump.get? "customer_id" = some (.int order.customerId) := rfl
  have htotal : order.modelDump.get? "total_amount" = some (.other order.totalAmount) := rfl
  have hstatus : order.modelDump.get? "status" = some (.str order.status) := rfl
  have hitems : order.modelDump.get? "items" =
      some (.arr (order.items.map OrderItemOut.modelDump)) := rfl
  simp [orderOut, hid, hcustomer, htotal, hstatus, hitems, p.int_int, p.str_str, p.decimal_other,
    list, mapM_eq_some p.orderItemOut_modelDump]

theorem orderOut_readBack (order : OrderOut) :
    p.orderOut (readBack order.modelDump) = some order := by
  have hid : (readBack order.modelDump).get? "id" = some (.int order.id) := rfl
  have hcustomer : (readBack order.modelDump).get? "customer_id" =
      some (.int order.customerId) := rfl
  have htotal : (readBack order.modelDump).get? "total_amount" =
      some (.str order.totalAmount.text) := rfl
  have hstatus : (readBack order.modelDump).get? "status" = some (.str order.status) := rfl
  have hitems : (readBack order.modelDump).get? "items" =
      some (.arr (order.items.map fun item => readBack item.modelDump)) := by
    have hget : (readBack order.modelDump).get? "items" = some (.arr (Json.defaultedItems
        FixedPoint.text (order.items.map OrderItemOut.modelDump))) := rfl
    rw [hget, Json.defaultedItems_eq_map, List.map_map]
    rfl
  simp [orderOut, hid, hcustomer, htotal, hstatus, hitems, p.int_int, p.str_str,
    p.decimal_str (order.totalAmount.parse_text), list, mapM_eq_some p.orderItemOut_readBack]

end Validation

/-- A row has the attributes that its reply dumps. -/
theorem attributes_eq (order : OrderRow) : order.attributes = order.out.modelDump := by
  have hitems : order.items.map OrderItem.attributes =
      order.out.items.map OrderItemOut.modelDump := by
    rw [OrderRow.out, List.map_map]
    rfl
  rw [OrderRow.attributes, hitems]
  rfl

end OrderMesh.Orders
