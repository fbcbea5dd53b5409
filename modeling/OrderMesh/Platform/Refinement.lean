import OrderMesh.Platform.Saga
import OrderMesh.Platform.System

namespace OrderMesh.Platform

open Orders (OrderStatus statusOf)
open Inventory (Call InventoryReservation Phase reservationRows wantedOf)
open Shipping (Shipment shipmentsOf)

/-- The payload is about the order, of the given type. -/
def about (t : EventType) (o : Int) (p : Payload) : Bool := p.eventType = t ∧ p.orderId = o

/-- Once published, the payload will be handled at the queue. -/
def due (q : Queue) (t : EventType) (o : Int) (p : Payload) : Bool :=
  (t ∈ q.handlers : Bool) && about t o p

/-- The work will have the queue handle an event of the type about the order. -/
def Work.owes (q : Queue) (t : EventType) (o : Int) : Work → Bool
  | .cancelling .. => false
  | .requested p => due q t o p
  | .backoff l => due q t o l.payload
  | .queued q' l => q' = q && about t o l.payload
  | .dead q' l => q' = q && about t o l.payload
  | .running _ _ (.announcing p) => due q t o p
  | .running _ _ (.inserted shipment) => due q t o (Shipping.shipmentCreated shipment)
  | .running q' l _ => q' = q && about t o l.payload

@[simp] theorem owes_cancelling (id : Int) (order : Orders.Order) (q : Queue) (t : EventType)
    (o : Int) : (Work.cancelling id order).owes q t o = false := rfl

@[simp] theorem owes_requested (p : Payload) (q : Queue) (t : EventType) (o : Int) :
    (Work.requested p).owes q t o = due q t o p := rfl

@[simp] theorem owes_backoff (l : Letter) (q : Queue) (t : EventType) (o : Int) :
    (Work.backoff l).owes q t o = due q t o l.payload := rfl

@[simp] theorem owes_queued (q' : Queue) (l : Letter) (q : Queue) (t : EventType) (o : Int) :
    (Work.queued q' l).owes q t o = (q' = q && about t o l.payload) := rfl

@[simp] theorem owes_dead (q' : Queue) (l : Letter) (q : Queue) (t : EventType) (o : Int) :
    (Work.dead q' l).owes q t o = (q' = q && about t o l.payload) := rfl

@[simp] theorem owes_announcing (q' : Queue) (l : Letter) (p : Payload) (q : Queue) (t : EventType)
    (o : Int) : (Work.running q' l (.announcing p)).owes q t o = due q t o p := rfl

@[simp] theorem owes_inserted (q' : Queue) (l : Letter) (shipment : Int × Shipment) (q : Queue)
    (t : EventType) (o : Int) : (Work.running q' l (.inserted shipment)).owes q t o =
      due q t o (Shipping.shipmentCreated shipment) := rfl

@[simp] theorem owes_setting (q' : Queue) (l : Letter) (status : OrderStatus) (q : Queue)
    (t : EventType) (o : Int) : (Work.running q' l (.setting status)).owes q t o =
      (q' = q && about t o l.payload) := rfl

@[simp] theorem owes_stock (q' : Queue) (l : Letter) (phase : Phase) (q : Queue) (t : EventType)
    (o : Int) : (Work.running q' l (.stock phase)).owes q t o =
      (q' = q && about t o l.payload) := rfl

@[simp] theorem owes_unshipped (q' : Queue) (l : Letter) (q : Queue) (t : EventType) (o : Int) :
    (Work.running q' l .unshipped).owes q t o = (q' = q && about t o l.payload) := rfl

def State.owed (d : State) (q : Queue) (t : EventType) (o : Int) : Nat :=
  d.flight.countP (Work.owes q t o)

theorem countP_exchange (l : Letter) (q : Queue) (t : EventType) (o : Int) :
    (exchange l).countP (Work.owes q t o) = if due q t o l.payload then 1 else 0 := by
  unfold exchange queues due
  by_cases hp : about t o l.payload = true
  · have ht : l.payload.eventType = t := (of_decide_eq_true hp).1
    cases q <;> cases t <;> simp [Queue.handlers, ht, hp, Work.owes]
  · cases q <;> simp [Work.owes, hp, List.countP_map, Function.comp_def]

def linesOf (order : Orders.Order) : List Item :=
  order.items.map fun i => ⟨i.productId, i.quantity⟩

/-- The rows a reservation of the order writes. -/
def linesAt (orders : SerialTable Orders.Order) (o : Int) : List InventoryReservation :=
  match orders.get? o with
  | none => []
  | some order => reservationRows o (wantedOf (linesOf order))

def State.saga (d : State) (o : Int) : Saga where
  status := statusOf d.orders o
  lines := linesAt d.orders o
  rows := (d.stock.reservationsOf o).map Prod.snd
  shipments := (shipmentsOf d.shipments o).length
  creating := d.owed .inventory .orderCreated o
  cancelling := d.owed .inventory .orderCancelled o
  confirming := d.owed .order .stockReserved o
  refusing := d.owed .order .stockUnavailable o
  shipping := d.owed .shipping .stockReserved o
  closing := d.owed .order .shipmentCreated o

/-- Replacing a piece of work changes the counts by what it and the new work owe. -/
theorem owed_replace {d d' : State} {i : Nat} {w : Work} {new : List Work}
    (hw : d.flight[i]? = some w) (hflight : d'.flight = Pool.replace d.flight i new) (q : Queue)
    (t : EventType) (o : Int) :
    d'.owed q t o + (if w.owes q t o then 1 else 0) =
      d.owed q t o + new.countP (Work.owes q t o) := by
  unfold State.owed
  rw [hflight]
  exact Pool.countP_replace hw new _

/-- The tables hold the same of the order. -/
structure SameTables (d d' : State) (o : Int) : Prop where
  status : statusOf d'.orders o = statusOf d.orders o
  lines : linesAt d'.orders o = linesAt d.orders o
  rows : (d'.stock.reservationsOf o).map Prod.snd = (d.stock.reservationsOf o).map Prod.snd
  shipments : (shipmentsOf d'.shipments o).length = (shipmentsOf d.shipments o).length

theorem SameTables.refl (d : State) (flight : List Work) (o : Int) :
    SameTables d { d with flight := flight } o := ⟨rfl, rfl, rfl, rfl⟩

theorem SameTables.of_eq {d d' : State} (horders : d'.orders = d.orders)
    (hstock : d'.stock = d.stock) (hshipments : d'.shipments = d.shipments) (o : Int) :
    SameTables d d' o :=
  ⟨by rw [horders], by rw [horders], by rw [hstock], by rw [hshipments]⟩

/-- Nothing changes for an order when the new work owes what the old did. -/
theorem saga_same {d d' : State} {o : Int} (htables : SameTables d d' o)
    (howed : ∀ q t, d'.owed q t o = d.owed q t o) : d'.saga o = d.saga o := by
  obtain ⟨hstatus, hlines, hrows, hshipments⟩ := htables
  exact Saga.ext hstatus hlines hrows hshipments (howed ..) (howed ..) (howed ..) (howed ..)
    (howed ..) (howed ..)

theorem idle_saga {d d' : State} {i : Nat} {w : Work} {new : List Work} {o : Int} {releasing : Prop}
    (hw : d.flight[i]? = some w) (hflight : d'.flight = Pool.replace d.flight i new)
    (htables : SameTables d d' o)
    (howed : ∀ q t, new.countP (Work.owes q t o) = if w.owes q t o then 1 else 0) :
    Saga.Step releasing (d.saga o) (d'.saga o) := by
  have hsame : d'.saga o = d.saga o := by
    refine saga_same htables fun q t => ?_
    have hcount := owed_replace hw hflight q t o
    rw [howed] at hcount
    omega
  rw [hsame]
  exact .idle

@[simp] theorem about_of_ne {t : EventType} {o : Int} {p : Payload} (h : p.orderId ≠ o) :
    about t o p = false := by
  simp [about, h]

@[simp] theorem due_of_ne {q : Queue} {t : EventType} {o : Int} {p : Payload} (h : p.orderId ≠ o) :
    due q t o p = false := by
  simp [due, h]

theorem due_shipmentCreated (shipment : Int × Shipment) (q : Queue) (t : EventType) (o : Int) :
    due q t o (Shipping.shipmentCreated shipment) =
      (Queue.order = q && EventType.shipmentCreated = t && shipment.2.orderId = o) := by
  cases q <;> cases t <;>
    simp [due, about, Shipping.shipmentCreated, Payload.eventType, Payload.orderId, Queue.handlers]

/-- Nobody waits for an event that no queue is bound to. -/
theorem due_of_unbound {p : Payload} (h : ∀ q : Queue, p.eventType ∉ q.handlers) (q : Queue)
    (t : EventType) (o : Int) : due q t o p = false := by
  unfold due about
  by_cases ht : p.eventType = t
  · simp [ht ▸ h q]
  · simp [ht]

/-- The order of the payload exists, and `OrderCreated` carries its lines. -/
def Known (orders : SerialTable Orders.Order) (p : Payload) : Prop :=
  ∃ order, orders.get? p.orderId = some order ∧
    ∀ o c t items, p = .orderCreated o c t items → items = linesOf order

/-- The rows a transaction has read without a lock. -/
def readRows : Phase → List (Int × InventoryReservation)
  | .checked rows => rows
  | .locking rows _ _ => rows
  | _ => []

/-- What a release has read covers all rows of the order, and no row of another. -/
structure Reads (s : Inventory.Store) (o : Int) (rows : List (Int × InventoryReservation)) :
    Prop where
  covers : ∀ r ∈ s.reservationsOf o, r.1 ∈ rows.map Prod.fst
  names : s.reservations.Names (fun r => r.orderId = o) (rows.map Prod.fst)

def Stage.Sound (d : State) (q : Queue) (l : Letter) : Stage → Prop
  | .setting status => target l.payload = some status
  | .stock phase => ∀ o c, l.payload = .orderCancelled o c →
      Reads d.stock o (readRows phase) ∧ ((d.saga o).Granted ∨ (d.saga o).Released)
  | .unshipped => True
  | .inserted shipment => q = .shipping ∧ shipment.2.orderId = l.payload.orderId
  | .announcing p => Known d.orders p

def Work.Sound (d : State) : Work → Prop
  | .cancelling id _ => ∃ order, d.orders.get? id = some order
  | .requested p => Known d.orders p
  | .backoff l => Known d.orders l.payload
  | .queued q l => l.payload.eventType ∈ q.handlers ∧ Known d.orders l.payload
  | .dead q l => l.payload.eventType ∈ q.handlers ∧ Known d.orders l.payload
  | .running q l stage =>
      (l.payload.eventType ∈ q.handlers ∧ Known d.orders l.payload) ∧ stage.Sound d q l

def State.Sound (d : State) : Prop := ∀ w ∈ d.flight, w.Sound d

/-- Some handler of the order's cancel has read rows and will delete them. -/
def State.Releasing (d : State) (o : Int) : Prop :=
  ∃ c r phase, .running .inventory ⟨.orderCancelled o c, r⟩ (.stock phase) ∈ d.flight

theorem answer_orderId {p p' : Payload} {ret : Inventory.Ret} (h : answer p ret = some p') :
    p'.orderId = p.orderId := by
  unfold answer at h
  split at h
  · cases h
    split_ifs <;> rfl
  · split_ifs at h
    cases h
    rfl
  · cases h

/-- What a transaction leaves behind is still about its order. -/
theorem countP_afterStock_other {l : Letter} {o : Int} (ho : l.payload.orderId ≠ o) (phase : Phase)
    (q : Queue) (t : EventType) : (afterStock l phase).countP (Work.owes q t o) = 0 := by
  unfold afterStock
  split
  · split
    · rename_i hp
      have hne := answer_orderId hp ▸ ho
      simp [hne]
    · rfl
  · simp [ho]

/-- A transaction leaves the rows of other orders alone. -/
theorem moved_reservationsOf_other {s s' : Inventory.Store} {p : Payload} {c : Call}
    {phase phase' : Phase} {m : Inventory.Move} {o : Int} (hc : call p = some c)
    (hmoved : Inventory.Moved s c phase m phase' s')
    (hreads : ∀ id, c = .releaseForOrder id → phase ≠ .ready → Reads s id (readRows phase))
    (ho : p.orderId ≠ o) : s'.reservationsOf o = s.reservationsOf o := by
  cases hmoved with
  | inserted =>
    cases p <;> cases hc
  | @reserved id items rows products =>
    have hid : p.orderId = id := by
      cases p <;> cases hc
      rfl
    unfold Inventory.reserveLocked
    split_ifs
    · exact Inventory.reservationsOf_commitReservation_other s _ _ (Ne.symm (hid ▸ ho))
    · rfl
  | @released id rows products =>
    have hid : p.orderId = id := by
      cases p <;> cases hc
      rfl
    refine (hreads id rfl (by simp)).names.select_deleteIds fun r hr => ?_
    have hro : r.orderId = o := of_decide_eq_true hr
    simpa [hro] using Ne.symm (hid ▸ ho)
  | _ => rfl

section Steps

variable {d d' : State} {i : Nat} {w : Work} {l : Letter} {m : Inventory.Move}
  {phase phase' : Phase} {releasing : Prop}

/-- The six counts of an order after a replacement. -/
theorem counts_replace {new : List Work} (hw : d.flight[i]? = some w)
    (hflight : d'.flight = Pool.replace d.flight i new) (o : Int) :
    let count q t := d'.owed q t o + (if w.owes q t o then 1 else 0) =
      d.owed q t o + new.countP (Work.owes q t o)
    count .inventory .orderCreated ∧ count .inventory .orderCancelled ∧
      count .order .stockReserved ∧ count .order .stockUnavailable ∧
      count .shipping .stockReserved ∧ count .order .shipmentCreated :=
  ⟨owed_replace hw hflight .., owed_replace hw hflight .., owed_replace hw hflight ..,
    owed_replace hw hflight .., owed_replace hw hflight .., owed_replace hw hflight ..⟩

theorem owed_pos {q : Queue} {t : EventType} {o : Int} (hw : d.flight[i]? = some w)
    (howes : w.owes q t o = true) : 0 < d.owed q t o :=
  List.countP_pos_iff.mpr ⟨w, List.mem_of_getElem? hw, howes⟩

/-- A transaction that goes on without a write is invisible. -/
theorem stockRunning_saga {id : Int} (hw : d.flight[i]? = some w)
    (howes : ∀ q t o, w.owes q t o = (Queue.inventory = q && about t o l.payload))
    (hflight : d'.flight = Pool.replace d.flight i [.running .inventory l (.stock phase)])
    (horders : d'.orders = d.orders) (hstock : d'.stock = d.stock)
    (hshipments : d'.shipments = d.shipments) :
    Saga.Step releasing (d.saga id) (d'.saga id) := by
  have htables : SameTables d d' id := .of_eq horders hstock hshipments id
  refine idle_saga hw hflight htables fun q t => ?_
  simp [howes, List.countP_singleton]

/-- A handler of `OrderCreated` takes a step. -/
theorem orderCreated_saga {id customerId total : Int} {items : List Item}
    (hw : d.flight[i]? = some w)
    (howes : ∀ q t o, w.owes q t o = (Queue.inventory = q && about t o l.payload))
    (hl : l.payload = .orderCreated id customerId total items) (hknown : Known d.orders l.payload)
    (hmoved : Inventory.Moved d.stock (.reserveForOrder id items) phase m phase' d'.stock)
    (hflight : d'.flight = Pool.replace d.flight i (afterStock l phase'))
    (horders : d'.orders = d.orders) (hshipments : d'.shipments = d.shipments) :
    Saga.Step releasing (d.saga id) (d'.saga id) := by
  have hstatus : statusOf d'.orders id = statusOf d.orders id := by rw [horders]
  have hlines : linesAt d'.orders id = linesAt d.orders id := by rw [horders]
  have hships : (shipmentsOf d'.shipments id).length = (shipmentsOf d.shipments id).length := by
    rw [hshipments]
  obtain ⟨n, hn⟩ : ∃ n, d.owed .inventory .orderCreated id = n + 1 := by
    refine Nat.exists_eq_add_one.mpr (owed_pos hw ?_)
    simp [howes, hl, about, Payload.eventType, Payload.orderId]
  have hgranted : d'.flight = Pool.replace d.flight i
      [.running .inventory l (.announcing (.stockReserved id items))] →
      d'.saga id = { d.saga id with
        rows := (d'.stock.reservationsOf id).map Prod.snd
        creating := n
        confirming := (d.saga id).confirming + 1
        shipping := (d.saga id).shipping + 1 } := by
    intro hflight
    have hcount := counts_replace hw hflight id
    simp [howes, hl, due, about, Queue.handlers, Payload.eventType, Payload.orderId] at hcount
    refine Saga.ext hstatus hlines rfl hships ?_ ?_ ?_ ?_ ?_ ?_ <;> simp only [State.saga] <;> omega
  generalize hs : d'.stock = s' at hmoved
  cases hmoved with
  | readNone h => exact stockRunning_saga hw howes hflight horders hs hshipments
  | readDone h =>
    rw [hgranted (by simpa [afterStock, answer, hl] using hflight), hs]
    refine .alreadyReserved hn ?_
    simpa [State.saga] using h
  | snapshot => exact stockRunning_saga hw howes hflight horders hs hshipments
  | locked => exact stockRunning_saga hw howes hflight horders hs hshipments
  | @reserved _ _ rows products =>
    unfold Inventory.reserveLocked at hs hflight
    by_cases hcov : Inventory.covers (wantedOf items) products = true
    · rw [if_pos hcov] at hs hflight
      rw [hgranted (by simpa [afterStock, answer, hl] using hflight), hs]
      obtain ⟨order, hget, hitems⟩ := hknown
      have hrows :=
        Inventory.reservationsOf_commitReservation_self d.stock id (wantedOf items) products
      have hlinesAt : linesAt d.orders id = reservationRows id (wantedOf items) := by
        rw [hl] at hget
        have hsame := hitems id customerId total items hl
        unfold linesAt
        rw [show d.orders.get? id = some order from hget, hsame]
      rw [hrows, ← hlinesAt]
      exact .reserved hn
    · rw [if_neg hcov] at hs hflight
      have heq : d'.saga id = { d.saga id with
          creating := n
          refusing := (d.saga id).refusing + 1 } := by
        have hcount := counts_replace hw hflight id
        simp [howes, hl, afterStock, answer, due, about, Queue.handlers, Payload.eventType,
          Payload.orderId] at hcount
        refine Saga.ext hstatus hlines (by simp only [State.saga, hs]) hships ?_ ?_ ?_ ?_ ?_ ?_ <;>
          simp only [State.saga] <;> omega
      rw [heq]
      exact .unavailable hn

/-- A handler of `OrderCancelled` takes a step. -/
theorem orderCancelled_saga {id customerId : Int}
    (hw : d.flight[i]? = some w)
    (howes : ∀ q t o, w.owes q t o = (Queue.inventory = q && about t o l.payload))
    (hl : l.payload = .orderCancelled id customerId)
    (hmoved : Inventory.Moved d.stock (.releaseForOrder id) phase m phase' d'.stock)
    (hreads : phase ≠ .ready → releasing ∧ Reads d.stock id (readRows phase))
    (hflight : d'.flight = Pool.replace d.flight i (afterStock l phase'))
    (horders : d'.orders = d.orders) (hshipments : d'.shipments = d.shipments) :
    Saga.Step releasing (d.saga id) (d'.saga id) := by
  have hstatus : statusOf d'.orders id = statusOf d.orders id := by rw [horders]
  have hlines : linesAt d'.orders id = linesAt d.orders id := by rw [horders]
  have hships : (shipmentsOf d'.shipments id).length = (shipmentsOf d.shipments id).length := by
    rw [hshipments]
  obtain ⟨n, hn⟩ : ∃ n, d.owed .inventory .orderCancelled id = n + 1 := by
    refine Nat.exists_eq_add_one.mpr (owed_pos hw ?_)
    simp [howes, hl, about, Payload.eventType, Payload.orderId]
  generalize hs : d'.stock = s' at hmoved
  have hdone : ∀ ids, d'.flight =
      Pool.replace d.flight i (afterStock l (.finished (.released ids))) →
      d'.saga id = { d.saga id with
        rows := (s'.reservationsOf id).map Prod.snd
        cancelling := n } := by
    intro ids hflight
    have hcount := counts_replace hw hflight id
    have hnone : ∀ q t,
        (afterStock l (.finished (.released ids))).countP (Work.owes q t id) = 0 := by
      intro q t
      by_cases hids : ids = []
      · simp [afterStock, answer, hl, hids]
      · have hunbound : ∀ q : Queue, (Payload.stockReleased id ids).eventType ∉ q.handlers := by
          intro q
          cases q <;> simp [Payload.eventType, Queue.handlers]
        simp [afterStock, answer, hl, hids, due_of_unbound hunbound]
    simp [howes, hl, hnone, about, Payload.eventType, Payload.orderId] at hcount
    refine Saga.ext hstatus hlines (by simp only [State.saga, hs]) hships ?_ ?_ ?_ ?_ ?_ ?_ <;>
      simp only [State.saga] <;> omega
  cases hmoved with
  | readEmpty h =>
    rw [hdone [] hflight]
    refine .nothingToRelease hn ?_
    simp [State.saga, h]
  | readRows h => exact stockRunning_saga hw howes hflight horders hs hshipments
  | snapshot => exact stockRunning_saga hw howes hflight horders hs hshipments
  | locked => exact stockRunning_saga hw howes hflight horders hs hshipments
  | @released _ rows products =>
    obtain ⟨hreading, hread⟩ := hreads (by simp)
    have hnil : (d.stock.commitRelease rows products).reservationsOf id = [] :=
      SerialTable.select_deleteIds_of_covers hread.covers
    rw [hdone _ hflight, hnil]
    exact .released hn hreading

theorem target_eq_some {p : Payload} {status : OrderStatus} (h : target p = some status) :
    (∃ items, p = .stockReserved p.orderId items ∧ status = .confirmed) ∨
      (p = .stockUnavailable p.orderId ∧ status = .cancelled) ∨
      (∃ id tracking courier, p = .shipmentCreated p.orderId id tracking courier ∧
        status = .shipped) := by
  cases p <;> cases h
  · exact .inl ⟨_, rfl, rfl⟩
  · exact .inr (.inl ⟨rfl, rfl⟩)
  · exact .inr (.inr ⟨_, _, _, rfl, rfl⟩)

/-- A handler of the order service has given the order its status. -/
theorem status_saga {status : OrderStatus} (hw : d.flight[i]? = some w)
    (howes : ∀ q t o, w.owes q t o = (Queue.order = q && about t o l.payload))
    (htarget : target l.payload = some status) (hflight : d'.flight = Pool.replace d.flight i [])
    (hstatus : statusOf d'.orders l.payload.orderId = some status)
    (hlines : linesAt d'.orders l.payload.orderId = linesAt d.orders l.payload.orderId)
    (hstock : d'.stock = d.stock) (hshipments : d'.shipments = d.shipments) :
    Saga.Step releasing (d.saga l.payload.orderId) (d'.saga l.payload.orderId) := by
  have hcount := counts_replace hw hflight l.payload.orderId
  have hrows : (d'.saga l.payload.orderId).rows = (d.saga l.payload.orderId).rows := by
    simp only [State.saga, hstock]
  have hships : (d'.saga l.payload.orderId).shipments = (d.saga l.payload.orderId).shipments := by
    simp only [State.saga, hshipments]
  have hpos : ∀ t, l.payload.eventType = t → ∃ n, d.owed .order t l.payload.orderId = n + 1 := by
    intro t ht
    refine Nat.exists_eq_add_one.mpr (owed_pos hw ?_)
    simp [howes, about, ht]
  rcases target_eq_some htarget with ⟨items, hp, rfl⟩ | ⟨hp, rfl⟩ | ⟨id, tracking, courier, hp, rfl⟩
  · have ht : l.payload.eventType = .stockReserved := by rw [hp]; rfl
    obtain ⟨n, hn⟩ := hpos _ ht
    have heq : d'.saga l.payload.orderId = { d.saga l.payload.orderId with
        status := some .confirmed, confirming := n } := by
      simp [howes, about, ht] at hcount
      refine Saga.ext hstatus hlines hrows hships ?_ ?_ ?_ ?_ ?_ ?_ <;>
        simp only [State.saga] <;> omega
    rw [heq]
    exact .confirmed hn
  · have ht : l.payload.eventType = .stockUnavailable := by rw [hp]; rfl
    obtain ⟨n, hn⟩ := hpos _ ht
    have heq : d'.saga l.payload.orderId = { d.saga l.payload.orderId with
        status := some .cancelled, refusing := n } := by
      simp [howes, about, ht] at hcount
      refine Saga.ext hstatus hlines hrows hships ?_ ?_ ?_ ?_ ?_ ?_ <;>
        simp only [State.saga] <;> omega
    rw [heq]
    exact .refused hn
  · have ht : l.payload.eventType = .shipmentCreated := by rw [hp]; rfl
    obtain ⟨n, hn⟩ := hpos _ ht
    have heq : d'.saga l.payload.orderId = { d.saga l.payload.orderId with
        status := some .shipped, closing := n } := by
      simp [howes, about, ht] at hcount
      refine Saga.ext hstatus hlines hrows hships ?_ ?_ ?_ ?_ ?_ ?_ <;>
        simp only [State.saga] <;> omega
    rw [heq]
    exact .closed hn

/-- A handler of the shipping service has found or inserted the shipment. -/
theorem dispatched_saga {new : List Work} (hw : d.flight[i]? = some w)
    (howes : ∀ q t o, w.owes q t o = (Queue.shipping = q && about t o l.payload))
    (htype : l.payload.eventType = .stockReserved)
    (hflight : d'.flight = Pool.replace d.flight i new)
    (hnew : ∀ q t, new.countP (Work.owes q t l.payload.orderId) =
      if Queue.order = q ∧ EventType.shipmentCreated = t then 1 else 0)
    (horders : d'.orders = d.orders) (hstock : d'.stock = d.stock)
    (hshipments : (d'.shipments = d.shipments ∧
      0 < (shipmentsOf d.shipments l.payload.orderId).length) ∨
      ((shipmentsOf d.shipments l.payload.orderId).length = 0 ∧
        (shipmentsOf d'.shipments l.payload.orderId).length = 1)) :
    Saga.Step releasing (d.saga l.payload.orderId) (d'.saga l.payload.orderId) := by
  have hcount := counts_replace hw hflight l.payload.orderId
  simp [howes, hnew, about, htype] at hcount
  obtain ⟨n, hn⟩ : ∃ n, d.owed .shipping .stockReserved l.payload.orderId = n + 1 := by
    refine Nat.exists_eq_add_one.mpr (owed_pos hw ?_)
    simp [howes, about, htype]
  rcases hshipments with ⟨hsame, hpos⟩ | ⟨hzero, hone⟩
  · have heq : d'.saga l.payload.orderId = { d.saga l.payload.orderId with
        shipping := n
        closing := (d.saga l.payload.orderId).closing + 1 } := by
      refine Saga.ext ?_ ?_ ?_ ?_ ?_ ?_ ?_ ?_ ?_ ?_ <;>
        simp only [State.saga, horders, hstock, hsame] <;> omega
    rw [heq]
    exact .alreadyShipped hn hpos
  · have heq : d'.saga l.payload.orderId = { d.saga l.payload.orderId with
        shipments := 1
        shipping := n
        closing := (d.saga l.payload.orderId).closing + 1 } := by
      refine Saga.ext ?_ ?_ ?_ ?_ ?_ ?_ ?_ ?_ ?_ ?_ <;>
        simp only [State.saga, horders, hstock, hone] <;> omega
    rw [heq]
    exact .shipped hn hzero

/-- Where only one queue is bound to the type, a copy reaches only that queue. -/
theorem due_of_sole {p : Payload} {q : Queue} (h : ∀ q' : Queue, p.eventType ∈ q'.handlers ↔ q' = q)
    (q' : Queue) (t : EventType) (o : Int) : due q' t o p = (q = q' && about t o p) := by
  unfold due about
  by_cases ht : p.eventType = t
  · have hq := h q'
    rw [ht] at hq
    by_cases hqq : q' = q
    · subst hqq
      simp [hq.mpr rfl]
    · simp [hq, hqq, Ne.symm hqq]
  · simp [ht]

theorem sole_or_stockReserved {p : Payload} {q : Queue} (h : p.eventType ∈ q.handlers) :
    (∀ q' : Queue, p.eventType ∈ q'.handlers ↔ q' = q) ∨
      (p.eventType = .stockReserved ∧ (q = .order ∨ q = .shipping)) := by
  cases q <;> cases p <;> simp [Queue.handlers, Payload.eventType] at h ⊢ <;>
    (intro q'; cases q' <;> simp)

/-- A handler has failed before it changed anything. -/
theorem failed_saga {q : Queue} (hw : d.flight[i]? = some w)
    (howes : ∀ q' t o, w.owes q' t o = (q = q' && about t o l.payload))
    (hbound : l.payload.eventType ∈ q.handlers)
    (hflight : d'.flight = Pool.replace d.flight i [failed q l])
    (horders : d'.orders = d.orders) (hstock : d'.stock = d.stock)
    (hshipments : d'.shipments = d.shipments) (o : Int) :
    Saga.Step releasing (d.saga o) (d'.saga o) := by
  have htables : SameTables d d' o := .of_eq horders hstock hshipments o
  have hidle : (∀ q' t, [failed q l].countP (Work.owes q' t o) = if w.owes q' t o then 1 else 0) →
      Saga.Step releasing (d.saga o) (d'.saga o) := idle_saga hw hflight htables
  unfold failed at hflight hidle
  by_cases hlimit : l.retry + 1 ≥ maxRetries
  · rw [if_pos hlimit] at hidle
    exact hidle fun q' t => by simp [howes, List.countP_singleton]
  · rw [if_neg hlimit] at hflight hidle
    rcases sole_or_stockReserved hbound with hsole | ⟨htype, hq⟩
    · exact hidle fun q' t => by simp [howes, List.countP_singleton, due_of_sole hsole]
    · by_cases ho : l.payload.orderId = o
      · subst ho
        have hcount := counts_replace hw hflight l.payload.orderId
        rcases hq with rfl | rfl
        · have hpos : 0 < d.owed .order .stockReserved l.payload.orderId := by
            refine owed_pos hw ?_
            simp [howes, about, htype]
          have heq : d'.saga l.payload.orderId = { d.saga l.payload.orderId with
              shipping := (d.saga l.payload.orderId).shipping + 1 } := by
            simp [howes, due, about, htype, Queue.handlers] at hcount
            refine Saga.ext ?_ ?_ ?_ ?_ ?_ ?_ ?_ ?_ ?_ ?_ <;>
              simp only [State.saga, horders, hstock, hshipments] <;> omega
          rw [heq]
          exact .retriedByOrder hpos
        · have hpos : 0 < d.owed .shipping .stockReserved l.payload.orderId := by
            refine owed_pos hw ?_
            simp [howes, about, htype]
          have heq : d'.saga l.payload.orderId = { d.saga l.payload.orderId with
              confirming := (d.saga l.payload.orderId).confirming + 1 } := by
            simp [howes, due, about, htype, Queue.handlers] at hcount
            refine Saga.ext ?_ ?_ ?_ ?_ ?_ ?_ ?_ ?_ ?_ ?_ <;>
              simp only [State.saga, horders, hstock, hshipments] <;> omega
          rw [heq]
          exact .retriedByShipping hpos
      · exact hidle fun q' t => by simp [howes, ho]

end Steps

end OrderMesh.Platform
