import OrderMesh.Inventory.Allocation
import OrderMesh.Platform.Invariant

namespace OrderMesh.Platform

open Orders (OrderCreate OrderStatus statusOf)
open Shipping (Shipments shipmentsOf)
open Inventory (Allocation ProductCreate)
open Transition

/-- The tables, the messages to be handled and those already handled, in order. -/
structure Choreography where
  orders : SerialTable Orders.Order
  stock : Inventory.Store
  shipments : Shipments
  inbox : List (Queue × Payload)
  handled : List (Queue × Payload)

/-- The exchange hands an event to every queue bound to its type. -/
def deliveries (p : Payload) : List (Queue × Payload) :=
  (queues.filter fun q => p.eventType ∈ q.handlers).map fun q => (q, p)

/-- One handler as a whole: the tables after it and the event it publishes. -/
def Choreography.handle (d : Choreography) (courier : String) (year : Nat) :
    Queue → Payload → Option (Choreography × Option Payload)
  | .order, p =>
      some (match target p with
        | none => d
        | some status => { d with orders := Orders.setStatus d.orders p.orderId status }, none)
  | .inventory, .orderCreated orderId _ _ items =>
      let r := Inventory.onOrderCreated d.stock orderId items
      some ({ d with stock := r.2 }, some r.1)
  | .inventory, .orderCancelled orderId _ =>
      let r := Inventory.onOrderCancelled d.stock orderId
      some ({ d with stock := r.2 }, r.1)
  | .shipping, .stockReserved orderId _ =>
      (Shipping.createShipment d.shipments orderId courier year).map fun r =>
        ({ d with shipments := r.2 }, some (Shipping.shipmentCreated r.1))
  | _, _ => some (d, none)

inductive ChoreographyAct
  | place (customerId : Int) (payload : OrderCreate)
  | handle (i : Nat) (courier : String) (year : Nat)

def choreographyStep (d : Choreography) : ChoreographyAct → Option Choreography
  | .place customerId payload =>
      match Orders.newOrder customerId payload with
      | none => some d
      | some order =>
          some { d with
            orders := d.orders.insert order
            inbox := d.inbox ++ deliveries (Orders.orderCreated d.orders.next order) }
  | .handle i courier year =>
      match d.inbox[i]? with
      | none => none
      | some m =>
          (d.handle courier year m.1 m.2).map fun r =>
            { r.1 with
              inbox := Pool.replace d.inbox i (r.2.toList.flatMap deliveries)
              handled := d.handled ++ [m] }

/-- The products are there, and no order was placed. -/
def Choreography.start (products : List (Int × ProductCreate)) : Choreography where
  orders := .empty
  stock := Inventory.runCalls .empty (products.map fun p => .createProduct p.1 p.2)
  shipments := .empty
  inbox := []
  handled := []

/-- The orders with their items, as inventory took them. -/
def taken (handled : List (Queue × Payload)) : List (Int × List Item) :=
  handled.filterMap fun m =>
    match m with
    | (.inventory, .orderCreated orderId _ _ items) => some (orderId, items)
    | _ => none

/-- The statuses the order service was told to set for an order. -/
def written (handled : List (Queue × Payload)) (o : Int) : List OrderStatus :=
  handled.filterMap fun m => if m.1 = .order ∧ m.2.orderId = o then target m.2 else none

/-- What the reference program has allocated once inventory took the orders so far. -/
def Choreography.allocation (d : Choreography) (products : List (Int × ProductCreate)) :
    Allocation :=
  (Allocation.of (Choreography.start products).stock).takeAll (taken d.handled)

/-- An order that was granted has one shipment and the status its last event wrote. -/
structure Choreography.Fulfilled (d : Choreography) (o : Int) : Prop where
  shipment : (shipmentsOf d.shipments o).length = 1
  status : (written d.handled o = [.confirmed, .shipped] ∧ statusOf d.orders o = some .shipped) ∨
    (written d.handled o = [.shipped, .confirmed] ∧ statusOf d.orders o = some .confirmed)

structure Choreography.Declined (d : Choreography) (o : Int) : Prop where
  shipment : shipmentsOf d.shipments o = []
  rows : d.stock.reservationsOf o = []
  status : statusOf d.orders o = some .cancelled

/-- The outcome of the choreography is the outcome of the reference program, which takes each order
once, with its own items. -/
structure Choreography.Refines (d : Choreography) (products : List (Int × ProductCreate)) :
    Prop where
  stock : (d.allocation products).Matches d.stock
  taken : ∀ id order, d.orders.get? id = some order →
    (taken d.handled).filter (fun r => r.1 = id) = [(id, linesOf order)]
  granted : ∀ o ∈ (d.allocation products).granted, d.Fulfilled o
  declined : ∀ o, (statusOf d.orders o).isSome → o ∉ (d.allocation products).granted → d.Declined o

/-- What there is of one order; the counts are of the messages still to be handled. -/
@[ext] structure Trace where
  status : Option OrderStatus
  written : List OrderStatus
  taken : List (List Item)
  granted : Bool
  shipments : Nat
  creating : Nat
  refusing : Nat
  confirming : Nat
  shipping : Nat
  closing : Nat

/-- The stages an order with these items goes through. -/
inductive Trace.Stage : Trace → Prop
  | unplaced : Trace.Stage ⟨none, [], [], false, 0, 0, 0, 0, 0, 0⟩
  | placed : Trace.Stage ⟨some .pending, [], [], false, 0, 1, 0, 0, 0, 0⟩
  | refused {items} : Trace.Stage ⟨some .pending, [], [items], false, 0, 0, 1, 0, 0, 0⟩
  | cancelled {items} :
      Trace.Stage ⟨some .cancelled, [.cancelled], [items], false, 0, 0, 0, 0, 0, 0⟩
  | granted {items} : Trace.Stage ⟨some .pending, [], [items], true, 0, 0, 0, 1, 1, 0⟩
  | confirmed {items} : Trace.Stage ⟨some .confirmed, [.confirmed], [items], true, 0, 0, 0, 0, 1, 0⟩
  | sent {items} : Trace.Stage ⟨some .pending, [], [items], true, 1, 0, 0, 1, 0, 1⟩
  | confirmedSent {items} :
      Trace.Stage ⟨some .confirmed, [.confirmed], [items], true, 1, 0, 0, 0, 0, 1⟩
  | shipped {items} : Trace.Stage ⟨some .shipped, [.shipped], [items], true, 1, 0, 0, 1, 0, 0⟩
  | confirmedShipped {items} :
      Trace.Stage ⟨some .shipped, [.confirmed, .shipped], [items], true, 1, 0, 0, 0, 0, 0⟩
  | shippedConfirmed {items} :
      Trace.Stage ⟨some .confirmed, [.shipped, .confirmed], [items], true, 1, 0, 0, 0, 0, 0⟩

/-- What one step does to an order. -/
inductive Trace.Step (s : Trace) : Trace → Prop
  | same : Step s s
  | place (hnew : s.status = none) :
      Step s { s with status := some .pending, creating := s.creating + 1 }
  | take {n} (items : List Item) (hcount : s.creating = n + 1) : Step s { s with
      creating := n, taken := s.taken ++ [items], granted := true
      confirming := s.confirming + 1, shipping := s.shipping + 1 }
  | refuse {n} (items : List Item) (hcount : s.creating = n + 1) : Step s { s with
      creating := n, taken := s.taken ++ [items], refusing := s.refusing + 1 }
  | cancel {n} (hcount : s.refusing = n + 1) : Step s { s with
      refusing := n, written := s.written ++ [.cancelled]
      status := s.status.map fun _ => .cancelled }
  | confirm {n} (hcount : s.confirming = n + 1) : Step s { s with
      confirming := n, written := s.written ++ [.confirmed]
      status := s.status.map fun _ => .confirmed }
  | ship {n} (hcount : s.shipping = n + 1) : Step s { s with
      shipping := n, shipments := max s.shipments 1, closing := s.closing + 1 }
  | close {n} (hcount : s.closing = n + 1) : Step s { s with
      closing := n, written := s.written ++ [.shipped]
      status := s.status.map fun _ => .shipped }

theorem Trace.Step.of_eq {s t u : Trace} (h : s.Step t) (heq : u = t) : s.Step u := heq ▸ h

theorem Trace.Stage.step {s t : Trace} (h : s.Stage) (hs : s.Step t) : t.Stage := by
  cases hs with
  | same => exact h
  | place hnew => cases h <;> first | exact .placed | cases hnew
  | take items hcount => cases h <;> first | (cases hcount; exact .granted) | cases hcount
  | refuse items hcount => cases h <;> first | (cases hcount; exact .refused) | cases hcount
  | cancel hcount => cases h <;> first | (cases hcount; exact .cancelled) | cases hcount
  | confirm hcount =>
    cases h with
    | granted => cases hcount; exact .confirmed
    | sent => cases hcount; exact .confirmedSent
    | shipped => cases hcount; exact .shippedConfirmed
    | _ => cases hcount
  | ship hcount =>
    cases h with
    | granted => cases hcount; exact .sent
    | confirmed => cases hcount; exact .confirmedSent
    | _ => cases hcount
  | close hcount =>
    cases h with
    | sent => cases hcount; exact .shipped
    | confirmedSent => cases hcount; exact .confirmedShipped
    | _ => cases hcount

/-- A message about a known order, in a queue bound to its type. No order is cancelled. -/
structure Expected (orders : SerialTable Orders.Order) (m : Queue × Payload) : Prop where
  bound : m.2.eventType ∈ m.1.handlers
  uncancelled : m.2.eventType ≠ .orderCancelled
  known : Known orders m.2

/-- Everything the handler of an expected message can do. -/
inductive Handled (d : Choreography) :
    Queue × Payload → Choreography → Option Payload → Prop
  | status {p status} (htarget : target p = some status) :
      Handled d (.order, p) { d with orders := Orders.setStatus d.orders p.orderId status } none
  | took {orderId customerId total items} :
      Handled d (.inventory, .orderCreated orderId customerId total items)
        { d with stock := (Inventory.onOrderCreated d.stock orderId items).2 }
        (some (Inventory.onOrderCreated d.stock orderId items).1)
  | shipped {orderId items courier year r}
      (hcreate : Shipping.createShipment d.shipments orderId courier year = some r) :
      Handled d (.shipping, .stockReserved orderId items) { d with shipments := r.2 }
        (some (Shipping.shipmentCreated r.1))

theorem Expected.handled {d e : Choreography} {m : Queue × Payload} (hm : Expected d.orders m)
    {courier : String} {year : Nat} {published : Option Payload}
    (h : d.handle courier year m.1 m.2 = some (e, published)) : Handled d m e published := by
  obtain ⟨q, p⟩ := m
  have hbound := hm.bound
  have huncancelled := hm.uncancelled
  cases q with
  | order =>
    obtain ⟨status, htarget⟩ : ∃ status, target p = some status := by
      cases p <;> first | exact ⟨_, rfl⟩ | simp [Payload.eventType, Queue.handlers] at hbound
    simp only [Choreography.handle, htarget] at h
    cases h
    exact .status htarget
  | inventory =>
    cases p with
    | orderCreated orderId customerId total items =>
      cases h
      exact .took
    | orderCancelled orderId customerId => exact absurd rfl huncancelled
    | _ => simp [Payload.eventType, Queue.handlers] at hbound
  | shipping =>
    cases p with
    | stockReserved orderId items =>
      obtain ⟨r, hcreate, heq⟩ := Option.map_eq_some_iff.mp h
      cases heq
      exact .shipped hcreate
    | _ => simp [Payload.eventType, Queue.handlers] at hbound

def Choreography.due (d : Choreography) (q : Queue) (t : EventType) (o : Int) : Nat :=
  d.inbox.countP fun m => m.1 = q && about t o m.2

def Choreography.trace (d : Choreography) (products : List (Int × ProductCreate)) (o : Int) :
    Trace where
  status := statusOf d.orders o
  written := written d.handled o
  taken := ((taken d.handled).filter fun r => r.1 = o).map Prod.snd
  granted := o ∈ (d.allocation products).granted
  shipments := (shipmentsOf d.shipments o).length
  creating := d.due .inventory .orderCreated o
  refusing := d.due .order .stockUnavailable o
  confirming := d.due .order .stockReserved o
  shipping := d.due .shipping .stockReserved o
  closing := d.due .order .shipmentCreated o

theorem countP_deliveries (p : Payload) (q : Queue) (t : EventType) (o : Int) :
    (deliveries p).countP (fun m => m.1 = q && about t o m.2) = if due q t o p then 1 else 0 := by
  unfold deliveries queues due
  by_cases hp : about t o p = true
  · have ht : p.eventType = t := (of_decide_eq_true hp).1
    cases q <;> cases t <;> simp [Queue.handlers, ht, hp]
  · cases q <;> simp [hp, List.countP_map, Function.comp_def]

/-- Handling a message takes it away and adds what its handler publishes. -/
theorem due_handled {d : Choreography} (d' : Choreography) {i : Nat} {m : Queue × Payload}
    {p : Option Payload}
    (hm : d.inbox[i]? = some m)
    (hinbox : d'.inbox = Pool.replace d.inbox i (p.toList.flatMap deliveries)) (q : Queue)
    (t : EventType) (o : Int) :
    d'.due q t o + (if m.1 = q && about t o m.2 then 1 else 0) =
      d.due q t o + if p.any (due q t o) then 1 else 0 := by
  unfold Choreography.due
  rw [hinbox, Pool.countP_replace hm]
  cases p with
  | none => rfl
  | some p => simp [countP_deliveries]

theorem taken_snoc (handled : List (Queue × Payload)) (m : Queue × Payload) :
    taken (handled ++ [m]) = taken handled ++ taken [m] := List.filterMap_append

theorem mem_taken_singleton {m : Queue × Payload} {r : Int × List Item} (h : r ∈ taken [m]) :
    ∃ customerId total, m.2 = .orderCreated r.1 customerId total r.2 := by
  obtain ⟨n, hn, hr⟩ := List.mem_filterMap.mp h
  rw [List.mem_singleton.mp hn] at hr
  split at hr
  · cases hr
    exact ⟨_, _, rfl⟩
  · cases hr

theorem written_snoc (handled : List (Queue × Payload)) (m : Queue × Payload) (o : Int) :
    written (handled ++ [m]) o =
      written handled o ++ if m.1 = .order ∧ m.2.orderId = o then (target m.2).toList else [] := by
  unfold written
  rw [List.filterMap_append]
  congr 1
  by_cases h : m.1 = .order ∧ m.2.orderId = o
  · cases htarget : target m.2 <;> simp [h, htarget]
  · simp [h]

theorem about_iff {t : EventType} {o : Int} {p : Payload} :
    about t o p = true ↔ p.eventType = t ∧ p.orderId = o := by simp [about]

theorem due_eq_false {p : Payload} {o : Int} (h : p.orderId ≠ o) (q : Queue) (t : EventType) :
    due q t o p = false := by simp [due, about, h]

section Trace

variable {d d' : Choreography} {products : List (Int × ProductCreate)} {i : Nat}

variable (d') in
/-- A handler and what it publishes leave the messages about other orders as they are. -/
theorem due_other {m : Queue × Payload} {p : Option Payload} (hm : d.inbox[i]? = some m)
    (hinbox : d'.inbox = Pool.replace d.inbox i (p.toList.flatMap deliveries))
    (hp : ∀ x ∈ p, x.orderId = m.2.orderId) {o : Int} (ho : o ≠ m.2.orderId) (q : Queue)
    (t : EventType) : d'.due q t o = d.due q t o := by
  have habout : about t o m.2 = false := by simp [about, Ne.symm ho]
  have hdue : p.any (due q t o) = false := by
    cases p with
    | none => rfl
    | some x => exact due_eq_false (by rw [hp x rfl]; exact Ne.symm ho) q t
  simpa [habout, hdue] using due_handled d' hm hinbox q t o

theorem trace_same {o : Int} (hstatus : statusOf d'.orders o = statusOf d.orders o)
    (hwritten : written d'.handled o = written d.handled o)
    (htaken : (taken d'.handled).filter (fun r => r.1 = o) =
      (taken d.handled).filter fun r => r.1 = o)
    (hgranted : o ∈ (d'.allocation products).granted ↔ o ∈ (d.allocation products).granted)
    (hshipments : (shipmentsOf d'.shipments o).length = (shipmentsOf d.shipments o).length)
    (hdue : ∀ q t, d'.due q t o = d.due q t o) :
    (d.trace products o).Step (d'.trace products o) := by
  have hsame : d'.trace products o = d.trace products o :=
    Trace.ext hstatus hwritten (congrArg (List.map Prod.snd) htaken) (decide_eq_decide.mpr hgranted)
      hshipments (hdue _ _) (hdue _ _) (hdue _ _) (hdue _ _) (hdue _ _)
  exact hsame ▸ .same

/-- A handler of the order service sets the status its event asks for. -/
theorem status_trace {p : Payload} {status : OrderStatus} (htarget : target p = some status)
    (hm : d.inbox[i]? = some (.order, p))
    (hd' : d' = { d with
      orders := Orders.setStatus d.orders p.orderId status
      inbox := Pool.replace d.inbox i []
      handled := d.handled ++ [(.order, p)] }) (o : Int) :
    (d.trace products o).Step (d'.trace products o) := by
  have hinbox : d'.inbox = Pool.replace d.inbox i [] := by rw [hd']
  have hdue := due_handled (p := none) d' hm hinbox
  have htaken : taken d'.handled = taken d.handled := by
    rw [hd', taken_snoc]
    exact List.append_nil _
  have hgranted : d'.allocation products = d.allocation products := by
    unfold Choreography.allocation
    rw [htaken]
  have hwritten := written_snoc d.handled (.order, p) o
  have hstatus := Orders.statusOf_setStatus d.orders p.orderId o status
  by_cases ho : o = p.orderId
  · subst ho
    rw [if_pos rfl] at hstatus
    simp only [htarget, and_self, if_true, Option.toList_some] at hwritten
    have hself : d.due .order p.eventType p.orderId = d'.due .order p.eventType p.orderId + 1 := by
      simpa [about] using (hdue .order p.eventType p.orderId).symm
    have hother : ∀ q t, ¬ (Queue.order = q ∧ p.eventType = t) →
        d'.due q t p.orderId = d.due q t p.orderId := fun q t hne => by
      simpa [about, hne] using hdue q t p.orderId
    have hcreating := hother .inventory .orderCreated (by simp)
    have hshipping := hother .shipping .stockReserved (by simp)
    rcases target_eq_some htarget with ⟨items, hp, rfl⟩ | ⟨hp, rfl⟩ |
        ⟨id, tracking, courier, hp, rfl⟩
    · have htype : p.eventType = .stockReserved := hp ▸ rfl
      have hrefusing := hother .order .stockUnavailable (by simp [htype])
      have hclosing := hother .order .shipmentCreated (by simp [htype])
      refine Trace.Step.of_eq (.confirm (htype ▸ hself)) ?_
      simp only [Choreography.trace, hgranted, htaken, hcreating, hrefusing, hshipping, hclosing]
      simp only [hd', hstatus, hwritten]
    · have htype : p.eventType = .stockUnavailable := hp ▸ rfl
      have hconfirming := hother .order .stockReserved (by simp [htype])
      have hclosing := hother .order .shipmentCreated (by simp [htype])
      refine Trace.Step.of_eq (.cancel (htype ▸ hself)) ?_
      simp only [Choreography.trace, hgranted, htaken, hcreating, hconfirming, hshipping, hclosing]
      simp only [hd', hstatus, hwritten]
    · have htype : p.eventType = .shipmentCreated := hp ▸ rfl
      have hrefusing := hother .order .stockUnavailable (by simp [htype])
      have hconfirming := hother .order .stockReserved (by simp [htype])
      refine Trace.Step.of_eq (.close (htype ▸ hself)) ?_
      simp only [Choreography.trace, hgranted, htaken, hcreating, hrefusing, hshipping, hconfirming]
      simp only [hd', hstatus, hwritten]
  · rw [if_neg ho] at hstatus
    simp only [Ne.symm ho, and_false, if_false, List.append_nil] at hwritten
    have hcount := due_other d' (p := none) hm hinbox (fun x hx => by cases hx) ho
    refine trace_same ?_ ?_ (by rw [htaken]) (by rw [hgranted]) ?_ hcount
    all_goals rw [hd']
    · exact hstatus
    · exact hwritten

theorem Trace.Stage.not_granted {s : Trace} (h : s.Stage) {n : Nat}
    (hcreating : s.creating = n + 1) :
    s.granted = false := by
  cases h <;> first | rfl | cases hcreating

section Took

variable {orderId customerId total : Int} {items : List Item}
  (hm : d.inbox[i]? = some (.inventory, .orderCreated orderId customerId total items))
  (hd' : d' = { d with
    stock := (Inventory.onOrderCreated d.stock orderId items).2
    inbox := Pool.replace d.inbox i (deliveries (Inventory.onOrderCreated d.stock orderId items).1)
    handled := d.handled ++ [(.inventory, .orderCreated orderId customerId total items)] })

include hd'

theorem took_taken : taken d'.handled = taken d.handled ++ [(orderId, items)] := by
  rw [hd', taken_snoc]
  rfl

theorem took_written (o : Int) : written d'.handled o = written d.handled o := by
  rw [hd', written_snoc]
  simp

theorem took_allocation : d'.allocation products = (d.allocation products).take orderId items := by
  unfold Choreography.allocation
  rw [took_taken hd', Allocation.takeAll_snoc]

include hm

/-- The answer of inventory is to the order service, or to the shipping service as well. -/
theorem took_due (q : Queue) (t : EventType) :
    d'.due q t orderId + (if Queue.inventory = q ∧ EventType.orderCreated = t then 1 else 0) =
      d.due q t orderId +
        if due q t orderId (Inventory.onOrderCreated d.stock orderId items).1 then 1 else 0 := by
  have hdue := due_handled (p := some (Inventory.onOrderCreated d.stock orderId items).1) d' hm
    (by rw [hd']; simp) q t orderId
  simpa [about, Payload.eventType, Payload.orderId] using hdue

theorem took_other {o : Int} (ho : o ≠ orderId) :
    (d.trace products o).Step (d'.trace products o) := by
  have hpublished : ∀ x ∈ some (Inventory.onOrderCreated d.stock orderId items).1,
      x.orderId = orderId := by
    rintro x ⟨⟩
    rcases Inventory.onOrderCreated_publishes d.stock orderId items with hp | hp <;> (rw [hp]; rfl)
  have hdue := due_other d' hm (by rw [hd']; simp) hpublished ho
  refine trace_same (by rw [hd']) (took_written hd' o) ?_ ?_ (by rw [hd']) hdue
  · rw [took_taken hd', List.filter_append]
    simp [Ne.symm ho]
  · rw [took_allocation hd', Allocation.granted_take]
    split_ifs <;> simp [ho]

/-- Of the order itself, the message is gone and the items are taken. -/
theorem took_self : d.due .inventory .orderCreated orderId =
      d'.due .inventory .orderCreated orderId + 1 ∧
    d'.due .order .shipmentCreated orderId = d.due .order .shipmentCreated orderId ∧
    ((taken d'.handled).filter fun r => r.1 = orderId).map Prod.snd =
      ((taken d.handled).filter fun r => r.1 = orderId).map Prod.snd ++ [items] := by
  have hcreating := took_due hm hd' .inventory .orderCreated
  have hclosing := took_due hm hd' .order .shipmentCreated
  refine ⟨?_, ?_, ?_⟩
  · rcases Inventory.onOrderCreated_publishes d.stock orderId items with hp | hp <;>
      simpa [hp, due, about, Payload.eventType] using hcreating.symm
  · rcases Inventory.onOrderCreated_publishes d.stock orderId items with hp | hp <;>
      simpa [hp, due, about, Payload.eventType] using hclosing
  · rw [took_taken hd', List.filter_append, List.map_append]
    simp

theorem took_granted (hfits : (d.allocation products).fits items = true)
    (hpublished : (Inventory.onOrderCreated d.stock orderId items).1 =
      .stockReserved orderId items) :
    (d.trace products orderId).Step (d'.trace products orderId) := by
  obtain ⟨hself, hclosing, hfilter⟩ := took_self hm hd'
  have hgranted := (d.allocation products).granted_take orderId items
  have hdue := took_due hm hd'
  rw [if_pos hfits] at hgranted
  rw [hpublished] at hdue
  have hrefusing : d'.due .order .stockUnavailable orderId =
      d.due .order .stockUnavailable orderId := by
    simpa [due, about, Payload.eventType] using hdue .order .stockUnavailable
  have hconfirming : d'.due .order .stockReserved orderId =
      d.due .order .stockReserved orderId + 1 := by
    simpa [due, about, Payload.eventType, Payload.orderId, Queue.handlers] using
      hdue .order .stockReserved
  have hshipping : d'.due .shipping .stockReserved orderId =
      d.due .shipping .stockReserved orderId + 1 := by
    simpa [due, about, Payload.eventType, Payload.orderId, Queue.handlers] using
      hdue .shipping .stockReserved
  refine Trace.Step.of_eq (.take items hself) ?_
  simp only [Choreography.trace, took_allocation hd', hgranted, hfilter, took_written hd',
    hrefusing,
    hconfirming, hshipping, hclosing]
  simp [hd']

theorem took_refused (hfits : ¬ (d.allocation products).fits items = true)
    (hpublished : (Inventory.onOrderCreated d.stock orderId items).1 = .stockUnavailable orderId) :
    (d.trace products orderId).Step (d'.trace products orderId) := by
  obtain ⟨hself, hclosing, hfilter⟩ := took_self hm hd'
  have hgranted := (d.allocation products).granted_take orderId items
  have hdue := took_due hm hd'
  rw [if_neg hfits] at hgranted
  rw [hpublished] at hdue
  have hrefusing : d'.due .order .stockUnavailable orderId =
      d.due .order .stockUnavailable orderId + 1 := by
    simpa [due, about, Payload.eventType, Payload.orderId, Queue.handlers] using
      hdue .order .stockUnavailable
  have hconfirming : d'.due .order .stockReserved orderId =
      d.due .order .stockReserved orderId := by
    simpa [due, about, Payload.eventType] using hdue .order .stockReserved
  have hshipping : d'.due .shipping .stockReserved orderId =
      d.due .shipping .stockReserved orderId := by
    simpa [due, about, Payload.eventType] using hdue .shipping .stockReserved
  refine Trace.Step.of_eq (.refuse items hself) ?_
  simp only [Choreography.trace, took_allocation hd', hgranted, hfilter, took_written hd',
    hrefusing,
    hconfirming, hshipping, hclosing]
  simp only [hd']

/-- Inventory takes an order as the reference program does. -/
theorem took_trace (hmatches : (d.allocation products).Matches d.stock)
    (hstage : (d.trace products orderId).Stage) :
    (d'.allocation products).Matches d'.stock ∧
      ∀ o, (d.trace products o).Step (d'.trace products o) := by
  have hnot : orderId ∉ (d.allocation products).granted :=
    of_decide_eq_false (hstage.not_granted (took_self hm hd').1)
  obtain ⟨hafter, hpublished⟩ := hmatches.onOrderCreated hnot items
  refine ⟨by rw [took_allocation hd', hd']; exact hafter, fun o => ?_⟩
  by_cases ho : o = orderId
  · subst ho
    by_cases hfits : (d.allocation products).fits items = true
    · exact took_granted hm hd' hfits (by rw [hpublished, if_pos hfits])
    · exact took_refused hm hd' hfits (by rw [hpublished, if_neg hfits])
  · exact took_other hm hd' ho

end Took

/-- Shipping leaves the order with a shipment. -/
theorem shipped_trace {orderId : Int} {items : List Item} {courier : String} {year : Nat}
    {r : (Int × Shipping.Shipment) × Shipments}
    (hcreate : Shipping.createShipment d.shipments orderId courier year = some r)
    (hm : d.inbox[i]? = some (.shipping, .stockReserved orderId items))
    (hd' : d' = { d with
      shipments := r.2
      inbox := Pool.replace d.inbox i (deliveries (Shipping.shipmentCreated r.1))
      handled := d.handled ++ [(.shipping, .stockReserved orderId items)] }) (o : Int) :
    (d.trace products o).Step (d'.trace products o) := by
  have hdue := due_handled (p := some (Shipping.shipmentCreated r.1)) d' hm (by rw [hd']; simp)
  have hid : r.1.2.orderId = orderId := Shipping.createShipment_orderId hcreate
  have hshipments := Shipping.length_shipmentsOf_createShipment hcreate o
  have htaken : taken d'.handled = taken d.handled := by
    rw [hd', taken_snoc]
    exact List.append_nil _
  have hallocation : d'.allocation products = d.allocation products := by
    unfold Choreography.allocation
    rw [htaken]
  have hwritten : written d'.handled o = written d.handled o := by
    rw [hd', written_snoc]
    simp
  have hcount : ∀ q t, d'.due q t o +
      (if Queue.shipping = q ∧ EventType.stockReserved = t ∧ orderId = o then 1 else 0) =
        d.due q t o +
          if t ∈ q.handlers ∧ EventType.shipmentCreated = t ∧ orderId = o then 1 else 0 := by
    intro q t
    simpa [due, about_iff, Shipping.shipmentCreated, Payload.eventType, Payload.orderId, hid]
      using hdue q t o
  have hcreating : d'.due .inventory .orderCreated o = d.due .inventory .orderCreated o := by
    simpa using hcount .inventory .orderCreated
  have hrefusing : d'.due .order .stockUnavailable o = d.due .order .stockUnavailable o := by
    simpa using hcount .order .stockUnavailable
  have hconfirming : d'.due .order .stockReserved o = d.due .order .stockReserved o := by
    simpa using hcount .order .stockReserved
  by_cases ho : o = orderId
  · subst ho
    have hshipping : d.due .shipping .stockReserved o = d'.due .shipping .stockReserved o + 1 := by
      simpa using (hcount .shipping .stockReserved).symm
    have hclosing : d'.due .order .shipmentCreated o = d.due .order .shipmentCreated o + 1 := by
      simpa [Queue.handlers] using hcount .order .shipmentCreated
    rw [if_pos rfl] at hshipments
    refine Trace.Step.of_eq (.ship hshipping) ?_
    simp only [Choreography.trace, hallocation, htaken, hwritten, hcreating, hrefusing, hconfirming,
      hclosing]
    simp only [hd', hshipments]
  · rw [if_neg ho] at hshipments
    have hsame : ∀ q t, d'.due q t o = d.due q t o := fun q t => by
      simpa [Ne.symm ho] using hcount q t
    refine trace_same ?_ hwritten (by rw [htaken]) (by rw [hallocation]) ?_ hsame
    · rw [hd']
    · rw [hd']
      exact hshipments

/-- A new order waits for inventory. -/
theorem placed_trace {customerId : Int} {payload : OrderCreate} {order : Orders.Order}
    (hnew : Orders.newOrder customerId payload = some order)
    (hd' : d' = { d with
      orders := d.orders.insert order
      inbox := d.inbox ++ deliveries (Orders.orderCreated d.orders.next order) }) (o : Int) :
    (d.trace products o).Step (d'.trace products o) := by
  have hstatus := Orders.statusOf_insert d.orders order o
  have hpending := (Orders.newOrder_eq_some hnew).1
  have hcount : ∀ q t, d'.due q t o = d.due q t o +
      if t ∈ q.handlers ∧ EventType.orderCreated = t ∧ d.orders.next = o then 1 else 0 := by
    intro q t
    unfold Choreography.due
    rw [hd', List.countP_append, countP_deliveries]
    simp [due, about_iff, Orders.orderCreated, Payload.eventType, Payload.orderId]
  have hrefusing : d'.due .order .stockUnavailable o = d.due .order .stockUnavailable o := by
    simpa using hcount .order .stockUnavailable
  have hconfirming : d'.due .order .stockReserved o = d.due .order .stockReserved o := by
    simpa using hcount .order .stockReserved
  have hshipping : d'.due .shipping .stockReserved o = d.due .shipping .stockReserved o := by
    simpa using hcount .shipping .stockReserved
  have hclosing : d'.due .order .shipmentCreated o = d.due .order .shipmentCreated o := by
    simpa using hcount .order .shipmentCreated
  have hallocation : d'.allocation products = d.allocation products := by rw [hd']; rfl
  by_cases ho : o = d.orders.next
  · subst ho
    have hnone : statusOf d.orders d.orders.next = none := by
      unfold statusOf
      rw [d.orders.get?_next]
      rfl
    have hcreating : d'.due .inventory .orderCreated d.orders.next =
        d.due .inventory .orderCreated d.orders.next + 1 := by
      simpa [Queue.handlers] using hcount .inventory .orderCreated
    rw [if_pos rfl, hpending] at hstatus
    refine Trace.Step.of_eq (.place hnone) ?_
    simp only [Choreography.trace, hallocation, hcreating, hrefusing, hconfirming, hshipping,
      hclosing]
    simp only [hd', hstatus]
  · rw [if_neg ho] at hstatus
    have hsame : ∀ q t, d'.due q t o = d.due q t o := fun q t => by
      simpa [Ne.symm ho] using hcount q t
    refine trace_same ?_ ?_ ?_ (by rw [hallocation]) ?_ hsame
    all_goals rw [hd']
    exact hstatus

end Trace

structure Choreography.Inv (d : Choreography) (products : List (Int × ProductCreate)) : Prop where
  stock : (d.allocation products).Matches d.stock
  stage : ∀ o, (d.trace products o).Stage
  expected : ∀ m ∈ d.inbox, Expected d.orders m
  lines : ∀ r ∈ taken d.handled, ∃ order, d.orders.get? r.1 = some order ∧ r.2 = linesOf order

theorem extends_setStatus (orders : SerialTable Orders.Order) (id : Int) (status : OrderStatus) :
    Extends orders (Orders.setStatus orders id status) := by
  unfold Orders.setStatus
  split
  · exact .refl orders
  · split_ifs
    · exact .refl orders
    · exact extends_writeStatus orders id status

theorem Handled.extends {d e : Choreography} {m : Queue × Payload} {published : Option Payload}
    (h : Handled d m e published) : Extends d.orders e.orders := by
  cases h with
  | status htarget => exact extends_setStatus _ _ _
  | took => exact .refl _
  | shipped hcreate => exact .refl _

/-- What a handler publishes is about the order of its message, and places no order. -/
theorem Handled.published {d e : Choreography} {m : Queue × Payload} {p : Payload}
    (h : Handled d m e (some p)) :
    p.orderId = m.2.orderId ∧ p.eventType ≠ .orderCreated ∧ p.eventType ≠ .orderCancelled := by
  generalize hp : some p = published at h
  cases h with
  | status htarget => cases hp
  | @took orderId customerId total items =>
    cases hp
    rcases Inventory.onOrderCreated_publishes d.stock orderId items with heq | heq <;>
      simp [heq, Payload.orderId, Payload.eventType]
  | shipped hcreate =>
    cases hp
    exact ⟨Shipping.createShipment_orderId hcreate,
      by simp [Shipping.shipmentCreated, Payload.eventType]⟩

theorem expected_deliveries {orders : SerialTable Orders.Order} {p : Payload}
    (hknown : Known orders p)
    (hne : p.eventType ≠ .orderCancelled) {m : Queue × Payload} (hm : m ∈ deliveries p) :
    Expected orders m := by
  obtain ⟨q, hq, rfl⟩ := List.mem_map.mp hm
  exact ⟨of_decide_eq_true (List.mem_filter.mp hq).2, hne, hknown⟩

theorem placed_inv {d d' : Choreography} {products : List (Int × ProductCreate)} {customerId : Int}
    {payload : OrderCreate} {order : Orders.Order} (hd : d.Inv products)
    (hnew : Orders.newOrder customerId payload = some order)
    (hd' : d' = { d with
      orders := d.orders.insert order
      inbox := d.inbox ++ deliveries (Orders.orderCreated d.orders.next order) }) :
    d'.Inv products := by
  have hext := extends_insert d.orders order
  have hget : (d.orders.insert order).get? d.orders.next = some order := by
    rw [SerialTable.get?_insert, if_pos rfl]
  refine ⟨?_, fun o => (hd.stage o).step (placed_trace hnew hd' o), fun m hm => ?_, ?_⟩
  · rw [hd']
    exact hd.stock
  · rw [hd'] at hm ⊢
    rcases List.mem_append.mp hm with hm | hm
    · have h := hd.expected m hm
      exact ⟨h.bound, h.uncancelled, h.known.extends hext⟩
    · refine expected_deliveries ⟨order, hget, ?_⟩
        (by simp [Orders.orderCreated, Payload.eventType]) hm
      intro o c t items hp
      cases hp
      rfl
  · rw [hd']
    intro r hr
    obtain ⟨old, hold, hitems⟩ := hd.lines r hr
    obtain ⟨row, hrow, hlines⟩ := hext r.1 old hold
    exact ⟨row, hrow, hitems.trans hlines.symm⟩

theorem handled_inv {d d' e : Choreography} {products : List (Int × ProductCreate)} {i : Nat}
    {m : Queue × Payload} {published : Option Payload} (hd : d.Inv products)
    (hm : d.inbox[i]? = some m) (hhandled : Handled d m e published)
    (hd' : d' = { e with
      inbox := Pool.replace d.inbox i (published.toList.flatMap deliveries)
      handled := d.handled ++ [m] }) : d'.Inv products := by
  have hexpected := hd.expected m (List.mem_of_getElem? hm)
  have hext := hhandled.extends
  obtain ⟨hstock, hsteps⟩ : (d'.allocation products).Matches d'.stock ∧
      ∀ o, (d.trace products o).Step (d'.trace products o) := by
    cases hhandled with
    | @status p status htarget =>
      have hallocation : d'.allocation products = d.allocation products := by
        unfold Choreography.allocation
        rw [hd', taken_snoc]
        exact congrArg _ (List.append_nil _)
      refine ⟨?_, status_trace htarget hm hd'⟩
      rw [hallocation, hd']
      exact hd.stock
    | @took orderId customerId total items =>
      exact took_trace hm (by rw [hd']; simp) hd.stock (hd.stage orderId)
    | @shipped orderId items courier year r hcreate =>
      have hallocation : d'.allocation products = d.allocation products := by
        unfold Choreography.allocation
        rw [hd', taken_snoc]
        exact congrArg _ (List.append_nil _)
      refine ⟨?_, shipped_trace hcreate hm (by rw [hd']; simp)⟩
      rw [hallocation, hd']
      exact hd.stock
  refine ⟨hstock, fun o => (hd.stage o).step (hsteps o), fun n hn => ?_, fun r hr => ?_⟩
  · rw [hd'] at hn ⊢
    rcases Pool.mem_of_mem_replace hn with hn | hn
    · have h := hd.expected n hn
      exact ⟨h.bound, h.uncancelled, h.known.extends hext⟩
    · obtain ⟨p, hp, hn⟩ := List.mem_flatMap.mp hn
      rw [Option.mem_toList.mp hp] at hhandled
      obtain ⟨horder, hcreated, hcancelled⟩ := hhandled.published
      obtain ⟨order, hget, -⟩ := hexpected.known.extends hext
      refine expected_deliveries ⟨order, horder ▸ hget, ?_⟩ hcancelled hn
      intro o c t items heq
      exact absurd (congrArg Payload.eventType heq) hcreated
  · rw [hd'] at hr ⊢
    rw [taken_snoc] at hr
    rcases List.mem_append.mp hr with hr | hr
    · obtain ⟨old, hold, hitems⟩ := hd.lines r hr
      obtain ⟨row, hrow, hlines⟩ := hext r.1 old hold
      exact ⟨row, hrow, hitems.trans hlines.symm⟩
    · obtain ⟨customerId, total, hp⟩ := mem_taken_singleton hr
      obtain ⟨order, hget, hitems⟩ := hexpected.known.extends hext
      rw [hp] at hget
      exact ⟨order, hget, hitems _ _ _ _ hp⟩

theorem choreographyStep_inv {d d' : Choreography} {products : List (Int × ProductCreate)}
    {a : ChoreographyAct} (hd : d.Inv products) (hs : choreographyStep d a = some d') :
    d'.Inv products := by
  unfold choreographyStep at hs
  split at hs
  · split at hs
    · cases hs
      exact hd
    · rename_i hnew
      cases hs
      exact placed_inv hd hnew rfl
  · split at hs
    · cases hs
    · rename_i m hm
      obtain ⟨⟨e, published⟩, hhandle, rfl⟩ := Option.map_eq_some_iff.mp hs
      have hexpected := hd.expected m (List.mem_of_getElem? hm)
      exact handled_inv hd hm (hexpected.handled hhandle) rfl

/-- Creating products writes no reservation. -/
theorem rows_start (products : List (Int × ProductCreate)) :
    (Choreography.start products).stock.reservations.rows = [] := by
  have hrows : ∀ s : Inventory.Store, (Inventory.runCalls s
      (products.map fun p => .createProduct p.1 p.2)).reservations = s.reservations := by
    induction products with
    | nil => exact fun s => rfl
    | cons p products ih =>
      intro s
      refine (ih _).trans ?_
      rcases (Inventory.Call.createProduct p.1 p.2).run_cases s with
        h | ⟨id, payload, -, -, -, h⟩ | ⟨o, items, hc, -⟩ | ⟨o, hc, -⟩
      · exact (congrArg Inventory.Store.reservations h).trans rfl
      · exact (congrArg Inventory.Store.reservations h).trans rfl
      · cases hc
      · cases hc
  exact congrArg SerialTable.rows (hrows .empty)

theorem inv_start (products : List (Int × ProductCreate)) :
    (Choreography.start products).Inv products where
  stock := Allocation.matches_of (rows_start products)
  stage o := .unplaced
  expected := by simp [Choreography.start]
  lines := by simp [Choreography.start, taken]

/-- With nothing in flight an order was granted and served, or declined, or is not there. -/
theorem Trace.Stage.atRest {s : Trace} (h : s.Stage) (hcreating : s.creating = 0)
    (hrefusing : s.refusing = 0) (hconfirming : s.confirming = 0) (hshipping : s.shipping = 0)
    (hclosing : s.closing = 0) :
    (s.status = none ∧ s.granted = false) ∨
    (∃ items, s.taken = [items] ∧ s.granted = false ∧ s.shipments = 0 ∧
      s.status = some .cancelled) ∨
    (∃ items, s.taken = [items] ∧ s.granted = true ∧ s.shipments = 1 ∧
      ((s.written = [.confirmed, .shipped] ∧ s.status = some .shipped) ∨
        (s.written = [.shipped, .confirmed] ∧ s.status = some .confirmed))) := by
  cases h with
  | unplaced => exact .inl ⟨rfl, rfl⟩
  | cancelled => exact .inr (.inl ⟨_, rfl, rfl, rfl, rfl⟩)
  | confirmedShipped => exact .inr (.inr ⟨_, rfl, rfl, rfl, .inl ⟨rfl, rfl⟩⟩)
  | shippedConfirmed => exact .inr (.inr ⟨_, rfl, rfl, rfl, .inr ⟨rfl, rfl⟩⟩)
  | placed => cases hcreating
  | refused => cases hrefusing
  | granted => cases hconfirming
  | confirmed => cases hshipping
  | sent => cases hconfirming
  | confirmedSent => cases hclosing
  | shipped => cases hconfirming

/-- With nothing in flight, the three services have done what the reference program
does with the orders in the sequence inventory took them. -/
theorem choreography_refines (products : List (Int × ProductCreate)) (acts : List ChoreographyAct)
    (d : Choreography) (hrun : exec choreographyStep (.start products) acts = some d)
    (hrest : d.inbox = []) : d.Refines products := by
  have hd : d.Inv products :=
    exec_invariant (fun e => e.Inv products) (fun _ _ _ he hs => choreographyStep_inv he hs)
      (inv_start products) hrun
  have hdue : ∀ q t o, d.due q t o = 0 := by
    intro q t o
    unfold Choreography.due
    rw [hrest]
    rfl
  have hatRest := fun o => (hd.stage o).atRest (hdue _ _ o) (hdue _ _ o) (hdue _ _ o) (hdue _ _ o)
    (hdue _ _ o)
  refine ⟨hd.stock, ?_, ?_, ?_⟩
  · intro id order hget
    obtain ⟨items, htaken⟩ : ∃ items, (d.trace products id).taken = [items] := by
      rcases hatRest id with ⟨hnone, -⟩ | ⟨items, htaken, -⟩ | ⟨items, htaken, -⟩
      · have hstatus : statusOf d.orders id = none := hnone
        rw [statusOf, hget] at hstatus
        cases hstatus
      · exact ⟨items, htaken⟩
      · exact ⟨items, htaken⟩
    obtain ⟨r, hfilter, hitems⟩ := List.map_eq_singleton_iff.mp htaken
    have hmem : r ∈ (taken d.handled).filter fun r => r.1 = id := by simp [hfilter]
    obtain ⟨htakenMem, hid⟩ := List.mem_filter.mp hmem
    obtain ⟨order', hget', hlines⟩ := hd.lines r htakenMem
    have hr : r = (id, linesOf order) := by
      have hid : r.1 = id := of_decide_eq_true hid
      rw [hid] at hget'
      cases Option.some.inj (hget.symm.trans hget')
      exact Prod.ext hid hlines
    exact hfilter.trans (congrArg (fun r => [r]) hr)
  · intro o ho
    have hgranted : (d.trace products o).granted = true := decide_eq_true ho
    rcases hatRest o with ⟨-, hnot⟩ | ⟨items, -, hnot, -⟩ | ⟨items, -, -, hshipments, hstatus⟩
    · rw [hgranted] at hnot
      cases hnot
    · rw [hgranted] at hnot
      cases hnot
    · exact ⟨hshipments, hstatus⟩
  · intro o hsome hnot
    have hgranted : (d.trace products o).granted = false := decide_eq_false hnot
    rcases hatRest o with ⟨hnone, -⟩ | ⟨items, -, -, hshipments, hstatus⟩ | ⟨items, -, hyes, -⟩
    · have hstatus : statusOf d.orders o = none := hnone
      rw [hstatus] at hsome
      cases hsome
    · exact ⟨List.eq_nil_of_length_eq_zero hshipments, hd.stock.reservationsOf hnot, hstatus⟩
    · rw [hgranted] at hyes
      cases hyes

/-- Two orders of two units each; the second is handled first, and its shipment is
confirmed before its stock. -/
def twoPlaced : List ChoreographyAct :=
  [.place 7 Orders.oneItem, .place 8 Orders.oneItem, .handle 1 "DHL" 2026, .handle 2 "DHL" 2026,
    .handle 2 "DHL" 2026, .handle 1 "DHL" 2026, .handle 0 "DHL" 2026, .handle 1 "UPS" 2026,
    .handle 0 "DHL" 2026, .handle 0 "DHL" 2026]

theorem choreography_refines_twoPlaced :
    ∃ d, exec choreographyStep (.start [(1, Inventory.widget)]) twoPlaced = some d ∧
      d.Refines [(1, Inventory.widget)] := by
  have hsome : (exec choreographyStep (.start [(1, Inventory.widget)]) twoPlaced).isSome := by
    decide +kernel
  have hrest : ∀ d ∈ exec choreographyStep (.start [(1, Inventory.widget)]) twoPlaced,
      d.inbox.isEmpty = true := by decide +kernel
  obtain ⟨d, hd⟩ := Option.isSome_iff_exists.mp hsome
  exact ⟨d, hd, choreography_refines _ twoPlaced d hd (List.isEmpty_iff.mp (hrest d hd))⟩

end OrderMesh.Platform
