import OrderMesh.Library.Within
import OrderMesh.Platform.Requests

namespace OrderMesh.Platform

open Program Service

/-- The transactions of an operation. -/
inductive Commits : Operation → Commit → Prop
  | createOrder {caller payload customerId} (h : caller.customerId = some customerId) :
      Commits (.createOrder caller payload) (.createOrder customerId payload)
  | cancelOrder {caller id} : Commits (.cancelOrder caller id) (.setStatus id .cancelled)
  | setStatus {id status} : Commits (.setStatus id status) (.setStatus id status)
  | createProduct {id payload} : Commits (.createProduct id payload) (.createProduct id payload)
  | reserve {orderId items locked} :
      Commits (.onOrderCreated orderId items) (.reserveForOrder orderId items locked)
  | release {orderId rows locked} :
      Commits (.onOrderCancelled orderId) (.releaseForOrder rows locked)
  | ship {orderId courier year} :
      Commits (.onStockReserved orderId courier year) (.createShipment orderId courier year)
  | updateStatus {id status} :
      Commits (.updateShipmentStatus id status) (.updateStatus id status)

/-- The events of an operation. -/
def Operation.eventTypes : Operation → List EventType
  | .createOrder _ _ => [.orderCreated]
  | .cancelOrder _ _ => [.orderCancelled]
  | .onOrderCreated _ _ => [.stockReserved, .stockUnavailable]
  | .onOrderCancelled _ => [.stockReleased]
  | .onStockReserved _ _ _ => [.shipmentCreated]
  | .updateShipmentStatus _ status => if status = .delivered then [.shipmentDelivered] else []
  | .listOrders _ | .getOrder _ _ | .setStatus _ _ | .createProduct _ _ | .listProducts
  | .getProduct _ | .getShipment _ => []

variable {ρ α β : Type}

/-- From one site to a later one by transactions and events of an operation. -/
structure Footprint (op : Operation) (s t : Site ρ) : Prop where
  databases : ∃ cs : List Commit, t.databases = cs.foldl Databases.commit s.databases ∧
    ∀ c ∈ cs, Commits op c
  published : ∃ ps : List Payload,
    t.published = s.published ++ ps ∧ ∀ p ∈ ps, p.eventType ∈ op.eventTypes

section

variable {op : Operation}

theorem footprint_refl (s : Site ρ) : Footprint op s s :=
  ⟨⟨[], rfl, by simp⟩, [], (List.append_nil _).symm, by simp⟩

theorem footprint_trans (s t u : Site ρ) (hst : Footprint op s t) (htu : Footprint op t u) :
    Footprint op s u := by
  obtain ⟨⟨cs, hdb, hcs⟩, ps, hpub, hps⟩ := hst
  obtain ⟨⟨ds, hdb', hds⟩, qs, hpub', hqs⟩ := htu
  refine ⟨⟨cs ++ ds, ?_, ?_⟩, ps ++ qs, ?_, ?_⟩
  · rw [hdb', hdb, List.foldl_append]
  · intro c hc
    exact (List.mem_append.mp hc).elim (hcs c) (hds c)
  · rw [hpub', hpub, List.append_assoc]
  · intro p hp
    exact (List.mem_append.mp hp).elim (hps p) (hqs p)

/-- A program that stays in the footprint of an operation. -/
abbrev Stays (op : Operation) (x : Service ρ α) : Prop := Within (Footprint op) x

theorem stays_pure (a : α) : Stays op (pure a : Service ρ α) := within_pure footprint_refl a

theorem stays_throw (e : Raised) : Stays op (throw e : Service ρ α) := within_throw footprint_refl e

theorem stays_bind {x : Service ρ α} {f : α → Service ρ β} (h : Stays op x)
    (hrest : ∀ a, Stays op (f a)) : Stays op (x >>= f) :=
  h.bind footprint_trans hrest

theorem stays_databases {f : Databases → Service ρ α} (h : ∀ d, Stays op (f d)) :
    Stays op (Service.databases >>= f) :=
  stays_bind footprint_refl h

theorem stays_liftExcept (x : Except Raised α) : Stays op (liftExcept x : Service ρ α) := by
  cases x with
  | ok a => exact stays_pure a
  | error e => exact stays_throw e

theorem liftExcept_ok_bind (a : α) (f : α → Service ρ β) :
    liftExcept (Except.ok a : Except Raised α) >>= f = f a := rfl

/-- The cache is no part of a footprint. -/
theorem stays_onCache (x : EStateM Raised ρ α) : Stays op (onCache x : Service ρ α) := by
  intro s
  have hsame : ∀ cache : ρ, Footprint op s { s with cache := cache } := by
    intro cache
    exact ⟨⟨[], rfl, by simp⟩, [], (List.append_nil _).symm, by simp⟩
  simp only [onCache]
  cases x s.cache with
  | ok a cache => exact hsame cache
  | error e cache => exact hsame cache

theorem stays_commit {c : Commit} (h : Commits op c) : Stays op (commit c : Service ρ Unit) := by
  intro s
  refine ⟨⟨[c], rfl, ?_⟩, [], (List.append_nil _).symm, by simp⟩
  intro c' hc'
  rw [List.mem_singleton.mp hc']
  exact h

theorem stays_publish {p : Payload} (h : p.eventType ∈ op.eventTypes) :
    Stays op (Service.publish p : Service ρ Unit) := by
  intro s
  refine ⟨⟨[], rfl, by simp⟩, [p], rfl, ?_⟩
  intro p' hp'
  rw [List.mem_singleton.mp hp']
  exact h

end

section

variable (cache : CacheApi ρ)

theorem stays_lookUp (op : Operation) (key : Key) (check : Row → Except Raised Unit)
    (detail : String) : Stays op (lookUp cache key check detail) := by
  refine stays_bind (stays_onCache _) fun found => ?_
  cases found with
  | some cached => exact stays_bind (stays_liftExcept _) fun _ => stays_pure _
  | none =>
    refine stays_databases fun d => ?_
    cases d.row key with
    | none => exact stays_throw _
    | some row =>
      exact stays_bind (stays_liftExcept _) fun _ =>
        stays_bind (stays_onCache _) fun _ => stays_pure _

theorem stays_createOrder (caller : Orders.Caller) (payload : Orders.OrderCreate) :
    Stays (.createOrder caller payload) (createOrder caller payload : Service ρ Row) := by
  unfold createOrder intUserId
  cases hc : caller.customerId with
  | none =>
    intro s
    exact footprint_refl s
  | some customerId =>
    rw [liftExcept_ok_bind]
    refine stays_databases fun d => ?_
    dsimp only
    cases Orders.newOrder customerId payload with
    | none => exact stays_throw _
    | some order =>
      refine stays_bind (stays_commit (.createOrder hc)) fun _ => ?_
      exact stays_bind (stays_publish (by simp [Operation.eventTypes, Orders.orderCreated,
        Payload.eventType])) fun _ => stays_pure _

theorem stays_listOrders (caller : Orders.Caller) :
    Stays (.listOrders caller) (listOrders caller : Service ρ (List Row)) := by
  have hrows : ∀ customerId : Option Int,
      Stays (.listOrders caller) (ordersOf customerId : Service ρ (List Row)) := by
    intro customerId
    exact stays_databases fun _ => stays_pure _
  unfold listOrders
  split_ifs
  · exact hrows none
  · exact stays_bind (stays_liftExcept _) fun customerId => hrows (some customerId)

theorem stays_cancelOrder (caller : Orders.Caller) (id : Int) :
    Stays (.cancelOrder caller id) (cancelOrder cache caller id) := by
  refine stays_databases fun d => ?_
  cases Orders.loadCancellable d.orders caller id with
  | error r => exact stays_throw _
  | ok order =>
    refine stays_bind (stays_commit .cancelOrder) fun _ => ?_
    refine stays_bind (stays_onCache _) fun _ => ?_
    exact stays_bind (stays_publish (by simp [Operation.eventTypes, Orders.orderCancelled,
      Payload.eventType])) fun _ => stays_pure _

theorem stays_setStatus (id : Int) (status : Orders.OrderStatus) :
    Stays (.setStatus id status) (setStatus cache id status) := by
  refine stays_databases fun d => ?_
  cases d.orders.get? id with
  | none => exact stays_pure _
  | some order =>
    dsimp only
    split_ifs
    · exact stays_pure _
    · exact stays_bind (stays_commit .setStatus) fun _ => stays_onCache _

theorem stays_createProduct (id : Int) (payload : Inventory.ProductCreate) :
    Stays (.createProduct id payload) (createProduct id payload : Service ρ Row) := by
  refine stays_databases fun d => ?_
  cases Inventory.createProduct d.stock id payload with
  | none => exact stays_throw _
  | some product => exact stays_bind (stays_commit .createProduct) fun _ => stays_pure _

theorem stays_invalidateProducts (op : Operation) (ids : List Int) :
    Stays op (invalidateProducts cache ids) :=
  within_forM footprint_refl footprint_trans (fun _ => stays_onCache _) ids

theorem stays_onOrderCreated (orderId : Int) (items : List Item) :
    Stays (.onOrderCreated orderId items) (onOrderCreated cache orderId items) := by
  have hreserve : Stays (.onOrderCreated orderId items)
      (reserveForOrder cache orderId items) := by
    refine stays_databases fun d => ?_
    dsimp only
    split_ifs
    · refine stays_bind (stays_commit .reserve) fun _ => ?_
      exact stays_bind (stays_invalidateProducts cache _ _) fun _ => stays_pure _
    · exact stays_pure _
    · exact stays_pure _
  refine stays_bind hreserve fun reserved => ?_
  split_ifs
  · exact stays_publish (by simp [Operation.eventTypes, Payload.eventType])
  · exact stays_publish (by simp [Operation.eventTypes, Payload.eventType])

theorem stays_onOrderCancelled (orderId : Int) :
    Stays (.onOrderCancelled orderId) (onOrderCancelled cache orderId) := by
  have hrelease : Stays (.onOrderCancelled orderId) (releaseForOrder cache orderId) := by
    refine stays_databases fun d => ?_
    dsimp only
    split_ifs
    · exact stays_pure _
    · refine stays_bind (stays_commit .release) fun _ => ?_
      exact stays_bind (stays_invalidateProducts cache _ _) fun _ => stays_pure _
  refine stays_bind hrelease fun released => ?_
  split_ifs
  · exact stays_publish (by simp [Operation.eventTypes, Payload.eventType])
  · exact stays_pure _

theorem stays_onStockReserved (orderId : Int) (courier : String) (year : Nat) :
    Stays (.onStockReserved orderId courier year)
      (onStockReserved orderId courier year : Service ρ Unit) := by
  have hcreate : Stays (.onStockReserved orderId courier year)
      (createShipment orderId courier year : Service ρ (Int × Shipping.Shipment)) := by
    refine stays_databases fun d => ?_
    dsimp only
    cases Shipping.existing d.shipments orderId with
    | some shipment => exact stays_pure _
    | none =>
      cases Shipping.insertShipment d.shipments orderId courier year with
      | none => exact stays_throw _
      | some shipment => exact stays_bind (stays_commit .ship) fun _ => stays_pure _
  refine stays_bind hcreate fun shipment => stays_publish ?_
  simp [Operation.eventTypes, Shipping.shipmentCreated, Payload.eventType]

theorem stays_updateShipmentStatus (id : Int) (status : Shipping.ShipmentStatus) :
    Stays (.updateShipmentStatus id status) (updateShipmentStatus cache id status) := by
  refine stays_databases fun d => ?_
  cases d.shipments.get? id with
  | none => exact stays_throw _
  | some shipment =>
    refine stays_bind (stays_commit .updateStatus) fun _ => ?_
    refine stays_bind (stays_onCache _) fun _ => ?_
    dsimp only
    split_ifs with hdelivered
    · refine stays_bind (stays_publish ?_) fun _ => stays_pure _
      simp [Operation.eventTypes, hdelivered, Shipping.shipmentDelivered, Payload.eventType]
    · exact stays_pure _

theorem stays_serve (op : Operation) : Stays op (serve cache op) := by
  cases op with
  | createOrder caller payload => exact (stays_createOrder caller payload).map _
  | listOrders caller => exact (stays_listOrders caller).map _
  | getOrder caller id => exact (stays_lookUp cache _ _ _ _).map _
  | cancelOrder caller id => exact (stays_cancelOrder cache caller id).map _
  | setStatus id status => exact (stays_setStatus cache id status).map _
  | createProduct id payload => exact (stays_createProduct id payload).map _
  | listProducts => exact Within.map (stays_databases fun _ => stays_pure _) _
  | getProduct id => exact (stays_lookUp cache _ _ _ _).map _
  | onOrderCreated orderId items => exact (stays_onOrderCreated cache orderId items).map _
  | onOrderCancelled orderId => exact (stays_onOrderCancelled cache orderId).map _
  | getShipment id => exact (stays_lookUp cache _ _ _ _).map _
  | onStockReserved orderId courier year => exact (stays_onStockReserved orderId courier year).map _
  | updateShipmentStatus id status =>
    exact (stays_updateShipmentStatus cache id status).map _

/-- Every operation stays in its footprint. -/
theorem footprint_serve (op : Operation) (s : Site ρ) :
    Footprint op s (outcome (serve cache op) s).2 := by
  have hserve := stays_serve cache op s
  unfold outcome
  cases hrun : serve cache op s with
  | ok a t =>
    rw [hrun] at hserve
    exact hserve
  | error e t =>
    rw [hrun] at hserve
    exact hserve

/-- What every transaction of a run keeps, the run keeps. -/
theorem after_databases {R : Databases → Databases → Prop} (hrefl : ∀ d, R d d)
    (htrans : ∀ d e f, R d e → R e f → R d f) {ops : List Operation}
    (hcommit : ∀ op ∈ ops, ∀ c, Commits op c → ∀ d, R d (d.commit c)) (s : Site ρ) :
    R s.databases (after cache s ops).databases := by
  have hfold : ∀ (cs : List Commit), (∀ c ∈ cs, ∀ d, R d (Databases.commit d c)) →
      ∀ d, R d (cs.foldl Databases.commit d) := by
    intro cs hcs
    induction cs with
    | nil => exact hrefl
    | cons c cs ih =>
      intro d
      have hhead := hcs c List.mem_cons_self d
      have htail := ih (fun c' hc' => hcs c' (List.mem_cons_of_mem c hc')) (d.commit c)
      exact htrans _ _ _ hhead htail
  induction ops using List.reverseRecOn with
  | nil => exact hrefl _
  | append_singleton ops op ih =>
    have hops := ih fun op' hop' => hcommit op' (List.mem_append_left _ hop')
    obtain ⟨cs, hcs, hallowed⟩ := (footprint_serve cache op (after cache s ops)).databases
    rw [after_append, hcs]
    have hlast := hfold cs (fun c hc d => hcommit op (by simp) c (hallowed c hc) d)
      (after cache s ops).databases
    exact htrans _ _ _ hops hlast

/-- A run publishes events of its operations only. -/
theorem mem_published_after {ops : List Operation} (s : Site ρ) {p : Payload}
    (h : p ∈ (after cache s ops).published) :
    p ∈ s.published ∨ ∃ op ∈ ops, p.eventType ∈ op.eventTypes := by
  induction ops using List.reverseRecOn with
  | nil => exact .inl h
  | append_singleton ops op ih =>
    obtain ⟨ps, hps, htypes⟩ := (footprint_serve cache op (after cache s ops)).published
    rw [after_append, hps] at h
    rcases List.mem_append.mp h with hold | hnew
    · refine (ih hold).imp_right fun hmore => ?_
      obtain ⟨op', hop', htype⟩ := hmore
      exact ⟨op', List.mem_append_left _ hop', htype⟩
    · exact .inr ⟨op, by simp, htypes p hnew⟩

end

end OrderMesh.Platform
