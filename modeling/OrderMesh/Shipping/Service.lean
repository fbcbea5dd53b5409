import OrderMesh.Library.SerialTable
import OrderMesh.Shared.Events.Schema

namespace OrderMesh.Shipping

inductive ShipmentStatus
  | created
  | pickedUp
  | inTransit
  | delivered
  deriving DecidableEq

/-- A row of `shipments`; its id is the key it is stored under. -/
structure Shipment where
  orderId : Int
  trackingNumber : String
  courierName : String
  status : ShipmentStatus
  deriving DecidableEq

def couriers : List String := ["BlueDart", "Delhivery", "FedEx", "DHL", "UPS"]

/-- `{n:06d}`: at least six characters, zeros after the sign. -/
def sixDigits (n : Int) : String :=
  let sign := if n < 0 then "-" else ""
  let digits := toString n.natAbs
  sign ++ String.ofList (List.replicate (6 - sign.length - digits.length) '0') ++ digits

def trackingNumber (year : Nat) (id : Int) : String :=
  "TRK-" ++ toString year ++ "-" ++ sixDigits id

abbrev Shipments := SerialTable Shipment

/-- The shipments of an order, with their ids. -/
def shipmentsOf (shipments : Shipments) (orderId : Int) : List (Int × Shipment) :=
  shipments.select fun s => s.orderId = orderId

def existing (shipments : Shipments) (orderId : Int) : Option (Int × Shipment) :=
  (shipmentsOf shipments orderId).head?

/-- Insert and commit; a unique index refuses a second shipment of the order or a
tracking number in use. -/
def insertShipment (shipments : Shipments) (orderId : Int) (courier : String) (year : Nat) :
    Option ((Int × Shipment) × Shipments) :=
  let shipment : Shipment := ⟨orderId, trackingNumber year shipments.next, courier, .created⟩
  if shipmentsOf shipments orderId = [] ∧
      ∀ row ∈ shipments.rows, row.2.trackingNumber ≠ shipment.trackingNumber then
    some ((shipments.next, shipment), shipments.insert shipment)
  else none

def createShipment (shipments : Shipments) (orderId : Int) (courier : String) (year : Nat) :
    Option ((Int × Shipment) × Shipments) :=
  match existing shipments orderId with
  | some shipment => some (shipment, shipments)
  | none => insertShipment shipments orderId courier year

def updateStatus (shipments : Shipments) (id : Int) (status : ShipmentStatus) : Shipments :=
  shipments.modify id fun shipment => { shipment with status := status }

def shipmentCreated (shipment : Int × Shipment) : Payload :=
  .shipmentCreated shipment.2.orderId shipment.1 shipment.2.trackingNumber shipment.2.courierName

def shipmentDelivered (shipment : Shipment) : Payload :=
  .shipmentDelivered shipment.orderId shipment.trackingNumber

theorem insertShipment_eq_some {shipments : Shipments} {orderId : Int} {courier : String}
    {year : Nat} {row : Int × Shipment} {shipments' : Shipments}
    (h : insertShipment shipments orderId courier year = some (row, shipments')) :
    shipmentsOf shipments orderId = [] ∧ row.2.orderId = orderId ∧ row.1 = shipments.next ∧
      shipments' = shipments.insert row.2 := by
  unfold insertShipment at h
  dsimp only at h
  split_ifs at h with hfree
  cases h
  exact ⟨hfree.1, rfl, rfl, rfl⟩

theorem shipmentsOf_insert (shipments : Shipments) (shipment : Shipment) (orderId : Int) :
    shipmentsOf (shipments.insert shipment) orderId =
      shipmentsOf shipments orderId ++
        if shipment.orderId = orderId then [(shipments.next, shipment)] else [] := by
  unfold shipmentsOf SerialTable.select
  rw [SerialTable.rows_insert, List.filter_append]
  congr 1
  by_cases h : shipment.orderId = orderId
  · simp [h]
  · simp [h]

/-- A status update moves no shipment to another order. -/
theorem length_shipmentsOf_updateStatus (shipments : Shipments) (id : Int) (status : ShipmentStatus)
    (orderId : Int) :
    (shipmentsOf (updateStatus shipments id status) orderId).length =
      (shipmentsOf shipments orderId).length := by
  unfold shipmentsOf SerialTable.select updateStatus SerialTable.modify
  simp only
  rw [← List.countP_eq_length_filter, ← List.countP_eq_length_filter, List.countP_map]
  congr 1
  funext row
  by_cases h : row.1 = id
  · simp [h]
  · simp [h]

theorem shipmentsOf_ne_nil {shipments : Shipments} {orderId : Int} :
    shipmentsOf shipments orderId ≠ [] ↔ ∃ row ∈ shipments.rows, row.2.orderId = orderId := by
  constructor
  · intro hne
    obtain ⟨row, hrow⟩ := List.exists_mem_of_ne_nil _ hne
    obtain ⟨hmem, horder⟩ := List.mem_filter.mp hrow
    exact ⟨row, hmem, of_decide_eq_true horder⟩
  · rintro ⟨row, hmem, horder⟩
    exact List.ne_nil_of_mem (List.mem_filter.mpr ⟨hmem, decide_eq_true horder⟩)

theorem existing_eq_none {shipments : Shipments} {orderId : Int} :
    existing shipments orderId = none ↔ shipmentsOf shipments orderId = [] := List.head?_eq_none_iff

theorem existing_eq_some {shipments : Shipments} {orderId : Int} {row : Int × Shipment}
    (h : existing shipments orderId = some row) :
    row.2.orderId = orderId ∧ 0 < (shipmentsOf shipments orderId).length := by
  have hmem : row ∈ shipmentsOf shipments orderId := List.mem_of_head? h
  exact ⟨of_decide_eq_true (List.mem_filter.mp hmem).2, List.length_pos_of_mem hmem⟩

/-- A created shipment was there already, or is inserted. -/
theorem createShipment_cases {shipments shipments' : Shipments} {orderId : Int}
    {row : Int × Shipment} {courier : String} {year : Nat}
    (h : createShipment shipments orderId courier year = some (row, shipments')) :
    (existing shipments orderId = some row ∧ shipments' = shipments) ∨
      insertShipment shipments orderId courier year = some (row, shipments') := by
  unfold createShipment at h
  cases hold : existing shipments orderId with
  | some shipment =>
    rw [hold] at h
    cases h
    exact .inl ⟨rfl, rfl⟩
  | none =>
    rw [hold] at h
    exact .inr h

/-- What `create_shipment` returns is a shipment of the order. -/
theorem createShipment_orderId {shipments shipments' : Shipments} {orderId : Int}
    {row : Int × Shipment} {courier : String} {year : Nat}
    (h : createShipment shipments orderId courier year = some (row, shipments')) :
    row.2.orderId = orderId := by
  rcases createShipment_cases h with ⟨hold, -⟩ | hinsert
  · exact (existing_eq_some hold).1
  · exact (insertShipment_eq_some hinsert).2.1

/-- Afterwards the order has a shipment, and no other order has got one. -/
theorem length_shipmentsOf_createShipment {shipments shipments' : Shipments} {orderId : Int}
    {row : Int × Shipment} {courier : String} {year : Nat}
    (h : createShipment shipments orderId courier year = some (row, shipments')) (o : Int) :
    (shipmentsOf shipments' o).length = if o = orderId then max (shipmentsOf shipments o).length 1
      else (shipmentsOf shipments o).length := by
  rcases createShipment_cases h with ⟨hold, rfl⟩ | hinsert
  · have hpos := (existing_eq_some hold).2
    split_ifs with ho
    · subst ho
      omega
    · rfl
  · obtain ⟨hnil, horder, -, rfl⟩ := insertShipment_eq_some hinsert
    rw [shipmentsOf_insert, horder]
    by_cases ho : o = orderId
    · simp [ho, hnil]
    · simp [ho, Ne.symm ho]

/-- Creating the shipment of an order again finds the first one. -/
theorem createShipment_again {shipments shipments' : Shipments} {orderId : Int}
    {row : Int × Shipment}
    {courier courier' : String} {year year' : Nat}
    (h : createShipment shipments orderId courier year = some (row, shipments')) :
    createShipment shipments' orderId courier' year' = some (row, shipments') := by
  have hfound : existing shipments' orderId = some row := by
    rcases createShipment_cases h with ⟨hold, rfl⟩ | hinsert
    · exact hold
    · obtain ⟨hnil, hid, hnext, rfl⟩ := insertShipment_eq_some hinsert
      have hrow : row = (shipments.next, row.2) := Prod.ext hnext rfl
      rw [existing, shipmentsOf_insert, hnil, if_pos hid, hrow]
      rfl
  rw [createShipment, hfound]

end OrderMesh.Shipping
