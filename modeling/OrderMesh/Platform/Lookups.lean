import OrderMesh.Inventory.Effects
import OrderMesh.Library.CacheAside
import OrderMesh.Library.Decimal
import OrderMesh.Order.Service
import OrderMesh.Shipping.Service

namespace OrderMesh.Platform

open CacheAside Transition

structure Databases where
  orders : SerialTable Orders.Order
  stock : Inventory.Store
  shipments : Shipping.Shipments

/-- What the lookups ask for. -/
inductive Key
  | order (id : Int)
  | product (id : Int)
  | shipment (id : Int)
  deriving DecidableEq

/-- `_cache_key` of each service; they share one Redis. -/
def cacheKey : Key → String
  | .order id => "order:" ++ toString id
  | .product id => "product:" ++ toString id
  | .shipment id => "shipment:" ++ toString id

/-- `OrderOut`, `ProductOut` and `ShipmentOut`, as replied and as cached. -/
inductive Row
  | order (id : Int) (order : Orders.Order)
  | product (id : Int) (product : Inventory.Product)
  | shipment (id : Int) (shipment : Shipping.Shipment)
  deriving DecidableEq

def Databases.row (t : Databases) : Key → Option Row
  | .order id => (t.orders.get? id).map (.order id)
  | .product id => (t.stock.products.get? id).map (.product id)
  | .shipment id => (t.shipments.get? id).map (.shipment id)

/-- The products a transaction has locked, of those it asked for. -/
structure Locked (ids : List Int) where
  products : Dict Int Inventory.Product
  subset : ∀ id ∈ products.keys, id ∈ ids

/-- What a transaction commits. `setStatus` is also that of `cancel_order`. -/
inductive Commit
  | createOrder (customerId : Int) (payload : Orders.OrderCreate)
  | setStatus (id : Int) (status : Orders.OrderStatus)
  | createProduct (id : Int) (payload : Inventory.ProductCreate)
  | reserveForOrder (orderId : Int) (items : List Item)
      (locked : Locked (Inventory.wantedOf items).keys)
  | releaseForOrder (rows : List (Int × Inventory.InventoryReservation))
      (locked : Locked (Inventory.productIds rows))
  | createShipment (orderId : Int) (courier : String) (year : Nat)
  | updateStatus (id : Int) (status : Shipping.ShipmentStatus)

def Databases.commit (t : Databases) : Commit → Databases
  | .createOrder customerId payload =>
      { t with orders := (Orders.newOrder customerId payload).elim t.orders t.orders.insert }
  | .setStatus id status => { t with orders := Orders.writeStatus t.orders id status }
  | .createProduct id payload =>
      { t with stock := (Inventory.createProduct t.stock id payload).elim t.stock Prod.snd }
  | .reserveForOrder orderId items locked =>
      { t with
        stock := t.stock.commitReservation orderId (Inventory.wantedOf items) locked.products }
  | .releaseForOrder rows locked => { t with stock := t.stock.commitRelease rows locked.products }
  | .createShipment orderId courier year =>
      { t with
        shipments :=
          (Shipping.insertShipment t.shipments orderId courier year).elim t.shipments Prod.snd }
  | .updateStatus id status => { t with shipments := Shipping.updateStatus t.shipments id status }

/-- The rows whose entries are deleted after the commit; a new row has none. -/
def Commit.invalidated : Commit → List Key
  | .createOrder _ _ | .createProduct _ _ | .createShipment _ _ _ => []
  | .setStatus id _ => [.order id]
  | .reserveForOrder _ items _ => (Inventory.wantedOf items).keys.map .product
  | .releaseForOrder rows _ => (Inventory.productIds rows).map .product
  | .updateStatus id _ => [.shipment id]

theorem cacheKey_injective (j k : Key) (h : cacheKey j = cacheKey k) : j = k := by
  have hlist := congrArg String.toList h
  cases j <;> cases k <;> simp only [cacheKey, String.toList_append] at hlist
  case order.order a b =>
    have hid := String.toList_injective (List.append_cancel_left hlist)
    rw [Decimal.toString_injective hid]
  case product.product a b =>
    have hid := String.toList_injective (List.append_cancel_left hlist)
    rw [Decimal.toString_injective hid]
  case shipment.shipment a b =>
    have hid := String.toList_injective (List.append_cancel_left hlist)
    rw [Decimal.toString_injective hid]
  all_goals
    have hhead := congrArg List.head? hlist
    simp at hhead

/-- Under a key that was not written, the row that was there stays. -/
theorem get?_update_keys {products locked : Dict Int Inventory.Product} {id : Int}
    (h : id ∉ locked.keys) : (products.update locked.entries).get? id = products.get? id := by
  rw [Dict.get?_update, (locked.get?_eq_none_iff id).mpr h]
  rfl

theorem get?_createProduct {s : Inventory.Store} {id : Int} {payload : Inventory.ProductCreate}
    {j : Int} {product : Inventory.Product} (h : s.products.get? j = some product) :
    ((Inventory.createProduct s id payload).elim s Prod.snd).products.get? j = some product := by
  unfold Inventory.createProduct
  split_ifs with hused
  · exact h
  · have hne : j ≠ id := by
      rintro rfl
      apply hused
      left
      rw [Dict.mem_keys_iff, h]
      rfl
    change (s.products.set id _).get? j = some product
    rw [Dict.get?_set, if_neg hne, h]

/-- A row that is there is changed only by a commit that deletes its entry. -/
theorem row_commit (t : Databases) (c : Commit) (k : Key) (row : Row) (hrow : t.row k = some row)
    (hk : k ∉ c.invalidated) : (t.commit c).row k = some row := by
  cases k with
  | order id =>
    obtain ⟨order, hget, rfl⟩ := Option.map_eq_some_iff.mp hrow
    have hstays : (t.commit c).orders.get? id = some order := by
      cases c with
      | createOrder customerId payload =>
        cases hnew : Orders.newOrder customerId payload with
        | none => simpa [Databases.commit, hnew] using hget
        | some new => simpa [Databases.commit, hnew] using SerialTable.get?_insert_of_some hget new
      | setStatus j status =>
        have hne : id ≠ j := fun heq => hk (by simp [Commit.invalidated, heq])
        simp only [Databases.commit, Orders.writeStatus]
        rw [SerialTable.get?_modify, if_neg hne, hget]
      | _ => exact hget
    simp [Databases.row, hstays]
  | product id =>
    obtain ⟨product, hget, rfl⟩ := Option.map_eq_some_iff.mp hrow
    have hstays : (t.commit c).stock.products.get? id = some product := by
      cases c with
      | createProduct j payload => exact get?_createProduct hget
      | reserveForOrder orderId items locked =>
        have hnot : id ∉ (Inventory.takeStock (Inventory.wantedOf items) locked.products).keys := by
          intro hmem
          rw [Inventory.keys_takeStock] at hmem
          exact hk (List.mem_map_of_mem (locked.subset id hmem))
        exact (get?_update_keys hnot).trans hget
      | releaseForOrder rows locked =>
        have hnot : id ∉ (Inventory.returnStock rows locked.products).keys := by
          intro hmem
          rw [Inventory.keys_returnStock] at hmem
          exact hk (List.mem_map_of_mem (locked.subset id hmem))
        exact (get?_update_keys hnot).trans hget
      | _ => exact hget
    simp [Databases.row, hstays]
  | shipment id =>
    obtain ⟨shipment, hget, rfl⟩ := Option.map_eq_some_iff.mp hrow
    have hstays : (t.commit c).shipments.get? id = some shipment := by
      cases c with
      | createShipment orderId courier year =>
        cases hnew : Shipping.insertShipment t.shipments orderId courier year with
        | none => simpa [Databases.commit, hnew] using hget
        | some new =>
          obtain ⟨-, -, -, htable⟩ := Shipping.insertShipment_eq_some hnew
          simpa [Databases.commit, hnew, htable] using SerialTable.get?_insert_of_some hget new.1.2
      | updateStatus j status =>
        have hne : id ≠ j := fun heq => hk (by simp [Commit.invalidated, heq])
        simp only [Databases.commit, Shipping.updateStatus]
        rw [SerialTable.get?_modify, if_neg hne, hget]
      | _ => exact hget
    simp [Databases.row, hstays]

def lookups : Backend Databases Key String Row Commit where
  view := Databases.row
  write := Databases.commit
  touched _ c := c.invalidated
  name := cacheKey
  name_injective := cacheKey_injective
  frame := row_commit

/-- Every call of Redis succeeds and nothing expires. -/
def undisturbed : Act Key String Commit → Bool
  | .expire _ => false
  | .delete _ ok | .lookup _ ok | .fill _ ok => ok
  | .write _ | .start _ | .load _ => true

/-- Lookups that cache in time reply with the row of every finished write or of a later one. -/
theorem lookups_fresh (databases : Databases) {as : List (Act Key String Commit)}
    {d : State Databases Key String Row}
    (hm : Meets (step lookups) Timely (State.start databases) as)
    (h : exec (step lookups) (State.start databases) as = some d) : d.Fresh lookups :=
  exec_fresh hm h

def onePending : Databases where
  orders := SerialTable.empty.insert ⟨10, 1998, .pending, [⟨1, 2, 999⟩]⟩
  stock := .empty
  shipments := .empty

/-- Two lookups around a write; the first caches its row before the write is finished. -/
def inTime : List (Act Key String Commit) :=
  [.start (.order 1), .lookup 0 true, .load 0, .write (.setStatus 1 .confirmed), .fill 0 true,
    .delete 0 true, .start (.order 1), .lookup 1 true, .load 1, .fill 1 true]

theorem lookups_fresh_inTime :
    Meets (step lookups) Timely (State.start onePending) inTime ∧
      (exec (step lookups) (State.start onePending) inTime).isSome ∧
      ∀ d, exec (step lookups) (State.start onePending) inTime = some d → d.Fresh lookups := by
  have hm : Meets (step lookups) Timely (State.start onePending) inTime := by decide +kernel
  exact ⟨hm, by decide +kernel, fun d h => lookups_fresh onePending hm h⟩

/-- A lookup that loads before a write and caches after its delete. -/
def slowLookup : List (Act Key String Commit) :=
  [.start (.order 1), .lookup 0 true, .load 0, .write (.setStatus 1 .confirmed), .delete 0 true,
    .fill 0 true, .start (.order 1), .lookup 1 true]

theorem slowLookup_stale :
    ¬ ∀ as d, (∀ a ∈ as, undisturbed a = true) →
      exec (step lookups) (State.start onePending) as = some d → d.Fresh lookups := by
  intro hall
  have hrun : (exec (step lookups) (State.start onePending) slowLookup).isSome := by decide +kernel
  obtain ⟨d, hd⟩ := Option.isSome_iff_exists.mp hrun
  have hstale : ∀ d ∈ exec (step lookups) (State.start onePending) slowLookup,
      ¬ d.Fresh lookups := by decide +kernel
  exact hstale d hd (hall slowLookup d (by decide) hd)

end OrderMesh.Platform
