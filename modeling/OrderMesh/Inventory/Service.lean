import Mathlib.Algebra.BigOperators.Group.List.Basic
import Mathlib.Algebra.Ring.Int.Defs
import Mathlib.Data.List.Dedup
import OrderMesh.Library.Dict
import OrderMesh.Library.SerialTable
import OrderMesh.Shared.Events.Schema

namespace OrderMesh.Inventory

/-- A row of `products`; its id is the key it is stored under. -/
structure Product where
  sku : String
  name : String
  quantityAvailable : Int
  deriving DecidableEq

/-- A row of `inventory_reservations`; its id is the key it is stored under. -/
structure InventoryReservation where
  productId : Int
  orderId : Int
  quantity : Int
  deriving DecidableEq

@[ext] structure Store where
  products : Dict Int Product
  reservations : SerialTable InventoryReservation
  deriving DecidableEq

def Store.empty : Store := ⟨Dict.empty, SerialTable.empty⟩

/-- A payload the `ProductCreate` schema accepts. -/
structure ProductCreate where
  sku : String
  name : String
  quantityAvailable : Int := 0
  sku_length : 1 ≤ sku.length ∧ sku.length ≤ 64
  name_length : 1 ≤ name.length ∧ name.length ≤ 255
  quantityAvailable_nonneg : 0 ≤ quantityAvailable

def Store.skuTaken (s : Store) (sku : String) : Bool :=
  s.products.entries.any fun p => p.2.sku = sku

/-- Insert a product under the id the sequence hands out. A used id or SKU is
refused by the unique indexes (`IntegrityError`) and leaves no row. -/
def createProduct (s : Store) (id : Int) (payload : ProductCreate) : Option (Product × Store) :=
  if id ∈ s.products.keys ∨ s.skuTaken payload.sku then none
  else
    let product : Product := ⟨payload.sku, payload.name, payload.quantityAvailable⟩
    some (product, { s with products := s.products.set id product })

/-- Change the stock of a product by `n`. -/
def Product.add (p : Product) (n : Int) : Product :=
  { p with quantityAvailable := p.quantityAvailable + n }

/-- Add each delta to the product it names; products not loaded are skipped. -/
def adjust (products : Dict Int Product) (deltas : List (Int × Int)) : Dict Int Product :=
  deltas.foldl (fun ps d => ps.modify d.1 fun p => p.add d.2) products

def Store.reservationsOf (s : Store) (orderId : Int) : List (Int × InventoryReservation) :=
  s.reservations.select fun r => r.orderId = orderId

/-- The quantities of the items, summed by product. -/
def wantedOf (items : List Item) : Dict Int Int :=
  items.foldl (fun wanted item =>
    wanted.set item.productId (wanted.getD item.productId 0 + item.quantity)) Dict.empty

/-- The locking select of the products with the given ids. -/
def Store.selectForUpdate (s : Store) (ids : List Int) : Dict Int Product :=
  s.products.filterKeys fun id => id ∈ ids

/-- Every wanted product is loaded and has enough stock. -/
def covers (wanted : Dict Int Int) (products : Dict Int Product) : Bool :=
  wanted.entries.all fun w =>
    match products.get? w.1 with
    | none => false
    | some product => !(product.quantityAvailable < w.2)

/-- `product.quantity_available -= qty` for every wanted product. -/
def takeStock (wanted : Dict Int Int) (products : Dict Int Product) : Dict Int Product :=
  adjust products (wanted.entries.map fun w => (w.1, -w.2))

def reservationRows (orderId : Int) (wanted : Dict Int Int) : List InventoryReservation :=
  wanted.entries.map fun w => ⟨w.1, orderId, w.2⟩

/-- Write back the loaded products and insert one row for each wanted product. -/
def Store.commitReservation (s : Store) (orderId : Int) (wanted : Dict Int Int)
    (products : Dict Int Product) : Store where
  products := s.products.update (takeStock wanted products).entries
  reservations := s.reservations.insertAll (reservationRows orderId wanted)

/-- What is left of `reserve_for_order` once the products are locked. -/
def reserveLocked (s : Store) (orderId : Int) (items : List Item) (products : Dict Int Product) :
    Bool × Store :=
  if covers (wantedOf items) products then
    (true, s.commitReservation orderId (wantedOf items) products)
  else (false, s)

def reserveForOrder (s : Store) (orderId : Int) (items : List Item) : Bool × Store :=
  if (s.reservationsOf orderId).isEmpty then
    reserveLocked s orderId items (s.selectForUpdate (wantedOf items).keys)
  else (true, s)

/-- `product_ids`: the products of the rows, each once. -/
def productIds (rows : List (Int × InventoryReservation)) : List Int :=
  (rows.map fun r => r.2.productId).dedup

/-- `product.quantity_available += reservation.quantity` for every row. -/
def returnStock (rows : List (Int × InventoryReservation)) (products : Dict Int Product) :
    Dict Int Product :=
  adjust products (rows.map fun r => (r.2.productId, r.2.quantity))

/-- Write back the loaded products and delete the rows that were read. -/
def Store.commitRelease (s : Store) (rows : List (Int × InventoryReservation))
    (products : Dict Int Product) : Store where
  products := s.products.update (returnStock rows products).entries
  reservations := s.reservations.deleteIds (rows.map Prod.fst)

def releaseForOrder (s : Store) (orderId : Int) : List Int × Store :=
  let rows := s.reservationsOf orderId
  if rows.isEmpty then ([], s)
  else (productIds rows, s.commitRelease rows (s.selectForUpdate (productIds rows)))

end OrderMesh.Inventory
