import OrderMesh.Inventory.Consumers
import OrderMesh.Library.Transition
import OrderMesh.Shared.Events.Consumer
import OrderMesh.Shipping.Service

namespace OrderMesh.Platform

open Transition

structure Tables where
  stock : Inventory.Store
  shipments : Shipping.Shipments
  deriving DecidableEq

/-- A handler with the payload of the event it is run on. -/
inductive Handler
  | onOrderCreated (orderId customerId totalAmount : Int) (items : List Item)
  | onOrderCancelled (orderId customerId : Int)
  | onStockReserved (orderId : Int) (items : List Item)

def Handler.payload : Handler → Payload
  | .onOrderCreated orderId customerId totalAmount items =>
      .orderCreated orderId customerId totalAmount items
  | .onOrderCancelled orderId customerId => .orderCancelled orderId customerId
  | .onStockReserved orderId items => .stockReserved orderId items

/-- The event type that tells of the handler's change. -/
def Handler.announces : Handler → EventType
  | .onOrderCreated .. => .stockReserved
  | .onOrderCancelled .. => .stockReleased
  | .onStockReserved .. => .shipmentCreated

/-- What an attempt commits and then wants to publish; `none` when it raises before
its commit. The courier and the year are those the shipping service would pick. -/
def Handler.run (courier : String) (year : Nat) :
    Handler → Tables → Option (Option Payload × Tables)
  | .onOrderCreated orderId _ _ items, t =>
      let r := Inventory.onOrderCreated t.stock orderId items
      some (some r.1, { t with stock := r.2 })
  | .onOrderCancelled orderId _, t =>
      let r := Inventory.onOrderCancelled t.stock orderId
      some (r.1, { t with stock := r.2 })
  | .onStockReserved orderId _, t =>
      (Shipping.createShipment t.shipments orderId courier year).map fun r =>
        (some (Shipping.shipmentCreated r.1), { t with shipments := r.2 })

/-- A message on its way through the attempts of one handler. -/
structure Handling where
  tables : Tables
  message : Message
  settlement : Option Settlement
  changed : Bool
  published : List Payload

/-- An attempt of the handler, or what other handlers and requests change before the next one. -/
inductive HandlingAct
  | stock (c : Inventory.Call)
  | shipment (orderId : Int) (courier : String) (year : Nat)
  | shipmentStatus (id : Int) (status : Shipping.ShipmentStatus)
  | attempt (courier : String) (year : Nat) (publishes : Bool)

def Handling.settle (d : Handling) (h : Handler) (ok : Bool) : Option Handling :=
  match OrderMesh.settle maxRetries (fun t => t = h.payload.eventType.value) d.message ok with
  | none => none
  | some (.republished copy) => some { d with message := copy }
  | some s => some { d with settlement := some s }

/-- The handler has committed, and its publication has succeeded or not. -/
def Handling.after (d : Handling) (t : Tables) (event : Option Payload) (publishes : Bool) :
    Handling := { d with
  tables := t
  changed := d.changed || (t ≠ d.tables)
  published := d.published ++ if publishes then event.toList else [] }

/-- One attempt; it succeeds when nothing is to be published or the publication succeeds. -/
def Handling.attempt (d : Handling) (h : Handler) (courier : String) (year : Nat)
    (publishes : Bool) : Option Handling :=
  match h.run courier year d.tables with
  | none => d.settle h false
  | some (event, t) => (d.after t event publishes).settle h (event.isNone || publishes)

def handlingStep (h : Handler) (d : Handling) : HandlingAct → Option Handling
  | .stock c => some { d with tables := { d.tables with stock := c.run d.tables.stock } }
  | .shipment orderId courier year =>
      (Shipping.createShipment d.tables.shipments orderId courier year).map fun r =>
        { d with tables := { d.tables with shipments := r.2 } }
  | .shipmentStatus id status =>
      some { d with tables :=
        { d.tables with shipments := Shipping.updateStatus d.tables.shipments id status } }
  | .attempt courier year publishes =>
      if d.settlement.isSome then none else d.attempt h courier year publishes

/-- The event has just been published. -/
def Handling.start (h : Handler) (t : Tables) (timestamp : String) (requestId : Option String) :
    Handling := ⟨t, publish (Event.create h.payload timestamp requestId), none, false, []⟩

/-- A matching event of the handler about its order. -/
def Handler.Matches (h : Handler) (p : Payload) : Prop :=
  p.eventType = h.announces ∧ p.orderId = h.payload.orderId

/-- If the message is acknowledged and an attempt changed the tables, a matching
event about the order was published. -/
def Handling.Announced (h : Handler) (d : Handling) : Prop :=
  d.settlement = some .acked → d.changed = true →
    ∃ p ∈ d.published, h.Matches p

/-- The tables hold what an attempt that succeeds announces. -/
def Handler.Finds (h : Handler) (t : Tables) (publishes : Bool) : Prop :=
  match h with
  | .onOrderCreated orderId _ _ items => publishes = true → t.stock.Grants orderId items
  | .onOrderCancelled orderId _ => t.stock.reservationsOf orderId ≠ []
  | .onStockReserved .. => True

/-- An attempt that follows a change finds again what it announces. -/
def FindsAgain (h : Handler) (d : Handling) : HandlingAct → Prop
  | .attempt _ _ publishes => d.changed = true → h.Finds d.tables publishes
  | _ => True

def HandlingAct.IsAttempt : HandlingAct → Prop
  | .attempt .. => True
  | _ => False

/-- Without other work in between: there is nothing to release, or the first attempt
publishes. The other two handlers need no condition. -/
def Handler.AnnouncesAlone (h : Handler) (t : Tables) (acts : List HandlingAct) : Prop :=
  match h, acts with
  | .onOrderCancelled orderId _, .attempt _ _ publishes :: _ =>
      t.stock.reservationsOf orderId = [] ∨ publishes = true
  | _, _ => True

/-- A successful attempt announces exactly when it finds what it announces. -/
theorem Handler.run_finds {h : Handler} {courier : String} {year : Nat} {t t' : Tables}
    {event : Option Payload} (hrun : h.run courier year t = some (event, t')) {publishes : Bool}
    (hok : (event.isNone || publishes) = true) :
    h.Finds t publishes ↔ ∃ p, event = some p ∧ h.Matches p := by
  cases h with
  | onOrderCreated orderId customerId totalAmount items =>
    cases hrun
    have hpublishes : publishes = true := by simpa using hok
    by_cases hgrants : t.stock.Grants orderId items
    · rw [Inventory.onOrderCreated_granted hgrants]
      exact ⟨fun _ => ⟨_, rfl, rfl, rfl⟩, fun _ _ => hgrants⟩
    · rw [Inventory.onOrderCreated_refused hgrants]
      refine ⟨fun hfinds => absurd (hfinds hpublishes) hgrants, ?_⟩
      rintro ⟨p, heq, htype, -⟩
      cases heq
      cases htype
  | onOrderCancelled orderId customerId =>
    cases hrun
    by_cases hrows : t.stock.reservationsOf orderId = []
    · rw [Inventory.onOrderCancelled_empty hrows]
      refine ⟨fun hfinds => absurd hrows hfinds, ?_⟩
      rintro ⟨p, heq, -⟩
      cases heq
    · rw [Inventory.onOrderCancelled_released hrows]
      exact ⟨fun _ => ⟨_, rfl, rfl, rfl⟩, fun _ => hrows⟩
  | onStockReserved orderId items =>
    obtain ⟨⟨row, shipments⟩, hcreate, heq⟩ := Option.map_eq_some_iff.mp hrun
    cases heq
    have horder := Shipping.createShipment_orderId hcreate
    exact ⟨fun _ => ⟨_, rfl, rfl, horder⟩, fun _ => trivial⟩

/-- An attempt that changes the tables wants to announce it. -/
theorem Handler.run_changed {h : Handler} {courier : String} {year : Nat} {t t' : Tables}
    {event : Option Payload} (hrun : h.run courier year t = some (event, t')) (hne : t' ≠ t) :
    ∃ p, event = some p ∧ h.Matches p := by
  cases h with
  | onOrderCreated orderId customerId totalAmount items =>
    cases hrun
    by_cases hgrants : t.stock.Grants orderId items
    · rw [Inventory.onOrderCreated_granted hgrants]
      exact ⟨_, rfl, rfl, rfl⟩
    · rw [Inventory.onOrderCreated_refused hgrants] at hne
      exact absurd rfl hne
  | onOrderCancelled orderId customerId =>
    cases hrun
    by_cases hrows : t.stock.reservationsOf orderId = []
    · rw [Inventory.onOrderCancelled_empty hrows] at hne
      exact absurd rfl hne
    · rw [Inventory.onOrderCancelled_released hrows]
      exact ⟨_, rfl, rfl, rfl⟩
  | onStockReserved orderId items =>
    obtain ⟨⟨row, shipments⟩, hcreate, heq⟩ := Option.map_eq_some_iff.mp hrun
    cases heq
    exact ⟨_, rfl, rfl, Shipping.createShipment_orderId hcreate⟩

/-- An attempt whose publication fails is asked for nothing. -/
theorem Handler.finds_of_unpublished {h : Handler} {courier : String} {year : Nat} {t t' : Tables}
    {p : Payload} (hrun : h.run courier year t = some (some p, t')) : h.Finds t false := by
  cases h with
  | onOrderCreated orderId customerId totalAmount items => exact fun hfalse => by cases hfalse
  | onOrderCancelled orderId customerId =>
    intro hrows
    simp [Handler.run, Inventory.onOrderCancelled_empty hrows] at hrun
  | onStockReserved orderId items => trivial

theorem Handler.finds_of_raised {h : Handler} {courier : String} {year : Nat} {t : Tables}
    (hrun : h.run courier year t = none) (publishes : Bool) : h.Finds t publishes := by
  cases h with
  | onOrderCreated orderId customerId totalAmount items => cases hrun
  | onOrderCancelled orderId customerId => cases hrun
  | onStockReserved orderId items => trivial

/-- A copy of the handler's event that can be settled; nothing was published before
the attempt that settles it. -/
structure Handling.Live (h : Handler) (d : Handling) : Prop where
  body : ∃ e, d.message.body = .event e ∧ e.eventType = h.payload.eventType.value
  retry : d.message.retry.isSome
  silent : d.settlement = none → d.published = []

theorem live_start (h : Handler) (t : Tables) (timestamp : String) (requestId : Option String) :
    (Handling.start h t timestamp requestId).Live h := by
  refine ⟨⟨_, rfl, rfl⟩, ?_, fun _ => rfl⟩
  exact Option.isSome_iff_exists.mpr ⟨0, retry_publish _⟩

theorem Handling.settle_ok {h : Handler} {d : Handling}
    (hbody : ∃ e, d.message.body = .event e ∧ e.eventType = h.payload.eventType.value)
    (hretry : d.message.retry.isSome) :
    d.settle h true = some { d with settlement := some .acked } := by
  obtain ⟨e, hbody, htype⟩ := hbody
  obtain ⟨r, hretry⟩ := Option.isSome_iff_exists.mp hretry
  unfold Handling.settle
  rw [settle_event hbody (by simpa using htype) hretry]
  rfl

/-- A failed attempt changes nothing but the message and how it is settled. -/
theorem Handling.Live.settle_failed {h : Handler} {d : Handling} (hd : d.Live h)
    (hnone : d.settlement = none) :
    ∃ d', d.settle h false = some d' ∧ d'.Live h ∧ d'.settlement ≠ some .acked ∧
      d'.tables = d.tables ∧ d'.changed = d.changed := by
  obtain ⟨e, hbody, htype⟩ := hd.body
  obtain ⟨r, hretry⟩ := Option.isSome_iff_exists.mp hd.retry
  have hsilent := hd.silent hnone
  unfold Handling.settle
  rw [settle_event hbody (by simpa using htype) hretry]
  by_cases hlimit : r + 1 ≥ maxRetries
  · simp only [hlimit, if_true, Bool.false_eq_true, if_false]
    exact ⟨_, rfl, ⟨hd.body, hd.retry, fun _ => hsilent⟩, by simp, rfl, rfl⟩
  · simp only [hlimit, Bool.false_eq_true, if_false]
    exact ⟨_, rfl, ⟨⟨e, hbody, htype⟩, by simp, fun _ => hsilent⟩, by simp [hnone], rfl, rfl⟩

/-- Everything one step of a live message can be. -/
inductive Tried (h : Handler) (d : Handling) : HandlingAct → Handling → Prop
  | other {a t} (ha : ∀ courier year publishes, a ≠ .attempt courier year publishes) :
      Tried h d a { d with tables := t }
  | raised {courier year publishes d'} (hnone : d.settlement = none)
      (hrun : h.run courier year d.tables = none) (hlive : d'.Live h)
      (hack : d'.settlement ≠ some .acked) (htables : d'.tables = d.tables)
      (hchanged : d'.changed = d.changed) : Tried h d (.attempt courier year publishes) d'
  | unpublished {courier year p t d'} (hnone : d.settlement = none)
      (hrun : h.run courier year d.tables = some (some p, t)) (hlive : d'.Live h)
      (hack : d'.settlement ≠ some .acked) (htables : d'.tables = t)
      (hchanged : d'.changed = (d.after t (some p) false).changed) :
      Tried h d (.attempt courier year false) d'
  | acked {courier year publishes event t} (hnone : d.settlement = none)
      (hrun : h.run courier year d.tables = some (event, t))
      (hok : (event.isNone || publishes) = true) :
      Tried h d (.attempt courier year publishes)
        { d.after t event publishes with settlement := some .acked }

theorem Handling.Live.after {h : Handler} {d : Handling} (hd : d.Live h) (t : Tables)
    (p : Payload) : (d.after t (some p) false).Live h :=
  ⟨hd.body, hd.retry, fun hnone => (List.append_nil _).trans (hd.silent hnone)⟩

theorem Handling.Live.tried {h : Handler} {d d' : Handling} {a : HandlingAct} (hd : d.Live h)
    (hs : handlingStep h d a = some d') : Tried h d a d' := by
  cases a with
  | stock c =>
    cases hs
    exact .other (by simp)
  | shipment orderId courier year =>
    obtain ⟨r, -, rfl⟩ := Option.map_eq_some_iff.mp hs
    exact .other (by simp)
  | shipmentStatus id status =>
    cases hs
    exact .other (by simp)
  | attempt courier year publishes =>
    simp only [handlingStep] at hs
    split_ifs at hs with hsettled
    have hnone : d.settlement = none := by simpa using hsettled
    unfold Handling.attempt at hs
    cases hrun : h.run courier year d.tables with
    | none =>
      rw [hrun] at hs
      obtain ⟨v, hv, hlive, hack, htables, hchanged⟩ := hd.settle_failed hnone
      cases Option.some.inj (hv.symm.trans hs)
      exact .raised hnone hrun hlive hack htables hchanged
    | some r =>
      obtain ⟨event, t⟩ := r
      rw [hrun] at hs
      dsimp only at hs
      by_cases hok : (event.isNone || publishes) = true
      · rw [hok, Handling.settle_ok (d := d.after t event publishes) hd.body hd.retry] at hs
        cases hs
        exact .acked hnone hrun hok
      · obtain ⟨p, rfl⟩ : ∃ p, event = some p := by
          cases event with
          | none => simp at hok
          | some p => exact ⟨p, rfl⟩
        cases publishes with
        | true => simp at hok
        | false =>
          obtain ⟨v, hv, hlive, hack, htables, hchanged⟩ := (hd.after t p).settle_failed hnone
          cases Option.some.inj (hv.symm.trans hs)
          exact .unpublished hnone hrun hlive hack htables hchanged

theorem Tried.live {h : Handler} {d d' : Handling} {a : HandlingAct} (hd : d.Live h)
    (htried : Tried h d a d') : d'.Live h := by
  cases htried with
  | other => exact ⟨hd.body, hd.retry, hd.silent⟩
  | raised hnone hrun hlive => exact hlive
  | unpublished hnone hrun hlive => exact hlive
  | acked => exact ⟨hd.body, hd.retry, fun hnone => by cases hnone⟩

theorem exec_live {h : Handler} {t : Tables} {timestamp : String} {requestId : Option String}
    {acts : List HandlingAct} {d : Handling}
    (hrun : exec (handlingStep h) (.start h t timestamp requestId) acts = some d) : d.Live h :=
  exec_invariant (Handling.Live h) (fun _ _ _ hd hs => (hd.tried hs).live hd)
    (live_start h t timestamp requestId) hrun

/-- An attempt that finds again what it announces announces all that was changed. -/
theorem Tried.announced {h : Handler} {d d' : Handling} {a : HandlingAct}
    (hannounced : d.Announced h) (hfinds : FindsAgain h d a) (htried : Tried h d a d') :
    d'.Announced h := by
  cases htried with
  | other => exact hannounced
  | raised hnone hrun hlive hack => exact fun hacked => absurd hacked hack
  | unpublished hnone hrun hlive hack => exact fun hacked => absurd hacked hack
  | @acked courier year publishes event t hnone hrun hok =>
    intro _ hchanged
    obtain ⟨p, rfl, hmatches⟩ : ∃ p, event = some p ∧ h.Matches p := by
      rcases (Bool.or_eq_true _ _).mp hchanged with hbefore | hnow
      · exact (Handler.run_finds hrun hok).mp (hfinds hbefore)
      · exact Handler.run_changed hrun (of_decide_eq_true hnow)
    have hpublishes : publishes = true := by simpa using hok
    exact ⟨p, by simp [Handling.after, hpublishes], hmatches⟩

/-- An attempt that does not find again what it announces settles the message
without a matching event. -/
theorem Tried.silent {h : Handler} {d d' : Handling} {a : HandlingAct} (hd : d.Live h)
    (hnot : ¬ FindsAgain h d a) (htried : Tried h d a d') :
    d'.settlement = some .acked ∧ ¬ d'.Announced h := by
  cases htried with
  | @other a t ha =>
    cases a with
    | attempt courier year publishes => exact absurd rfl (ha courier year publishes)
    | _ => exact absurd trivial hnot
  | raised hnone hrun => exact absurd (fun _ => Handler.finds_of_raised hrun _) hnot
  | unpublished hnone hrun => exact absurd (fun _ => Handler.finds_of_unpublished hrun) hnot
  | @acked courier year publishes event t hnone hrun hok =>
    obtain ⟨hchanged, hfinds⟩ := Classical.not_imp.mp hnot
    refine ⟨rfl, fun hannounced => hfinds ?_⟩
    obtain ⟨p, hp, hmatches⟩ := hannounced rfl (by simp [Handling.after, hchanged])
    have hmem : p ∈ event.toList := by
      simp only [Handling.after, hd.silent hnone, List.nil_append] at hp
      split_ifs at hp
      · exact hp
      · cases hp
    exact (Handler.run_finds hrun hok).mpr ⟨p, Option.mem_toList.mp hmem, hmatches⟩

/-- Once a message is settled, no attempt follows. -/
theorem exec_settled {h : Handler} {d d' : Handling} {acts : List HandlingAct}
    (hd : d.settlement.isSome) (hrun : exec (handlingStep h) d acts = some d') :
    d'.settlement = d.settlement ∧ d'.changed = d.changed ∧ d'.published = d.published := by
  refine exec_invariant (fun e => e.settlement = d.settlement ∧ e.changed = d.changed ∧
    e.published = d.published) ?_ ⟨rfl, rfl, rfl⟩ hrun
  rintro e a e' ⟨hs, hc, hp⟩ hstep
  cases a with
  | stock c =>
    cases hstep
    exact ⟨hs, hc, hp⟩
  | shipment orderId courier year =>
    obtain ⟨r, -, rfl⟩ := Option.map_eq_some_iff.mp hstep
    exact ⟨hs, hc, hp⟩
  | shipmentStatus id status =>
    cases hstep
    exact ⟨hs, hc, hp⟩
  | attempt courier year publishes =>
    simp only [handlingStep, hs, hd, if_true] at hstep
    cases hstep

/-- With other work in between, the change is announced exactly when every attempt
finds again what an earlier one has changed. -/
theorem announced_iff_findsAgain {h : Handler} {t : Tables} {timestamp : String}
    {requestId : Option String} {acts : List HandlingAct} {d : Handling}
    (hrun : exec (handlingStep h) (.start h t timestamp requestId) acts = some d) :
    d.Announced h ↔
      Meets (handlingStep h) (FindsAgain h) (.start h t timestamp requestId) acts := by
  constructor
  · intro hannounced
    by_contra hmeets
    obtain ⟨pre, a, post, u, rfl, hpre, hnot⟩ := exists_break_of_not_meets hrun hmeets
    obtain ⟨u', hu', hrest⟩ := exec_append_eq_some.mp hrun
    cases Option.some.inj (hpre.symm.trans hu')
    obtain ⟨v, hv, hpost⟩ := exec_cons_eq_some.mp hrest
    have hlive := exec_live hpre
    obtain ⟨hacked, hsilent⟩ := (hlive.tried hv).silent hlive hnot
    obtain ⟨hsettlement, hchanged, hpublished⟩ := exec_settled (by simp [hacked]) hpost
    apply hsilent
    unfold Handling.Announced at hannounced
    rwa [hsettlement, hchanged, hpublished] at hannounced
  · intro hmeets
    refine (exec_invariant_of_meets (fun e => e.Live h ∧ e.Announced h) ?_
      ⟨live_start h t timestamp requestId, fun hnone => by cases hnone⟩ hmeets hrun).2
    rintro e a e' ⟨hlive, hannounced⟩ hfinds hs
    have htried := hlive.tried hs
    exact ⟨htried.live hlive, htried.announced hannounced hfinds⟩

/-- A granted order stays granted until its rows are released. -/
theorem grants_onOrderCreated {s : Inventory.Store} {orderId : Int} {items : List Item}
    (h : s.Grants orderId items) :
    (Inventory.onOrderCreated s orderId items).2.Grants orderId items := by
  rw [Inventory.onOrderCreated_granted h]
  by_cases hrows : s.reservationsOf orderId = []
  · by_cases hitems : items = []
    · subst hitems
      simpa [hrows, Inventory.reserved_nil] using h
    · simp only [if_pos hrows]
      exact .inl (Inventory.reservationsOf_reserved_ne_nil s orderId hitems)
  · simpa only [if_neg hrows] using h

theorem Handler.run_grants {orderId customerId totalAmount : Int} {items : List Item}
    {courier : String} {year : Nat} {t t' : Tables} {event : Option Payload} {changed : Bool}
    (hrun : (Handler.onOrderCreated orderId customerId totalAmount items).run courier year t =
      some (event, t')) (h : changed = true → t.stock.Grants orderId items)
    (hchanged : (changed || (t' ≠ t : Bool)) = true) : t'.stock.Grants orderId items := by
  cases hrun
  by_cases hgrants : t.stock.Grants orderId items
  · exact grants_onOrderCreated hgrants
  · rw [Inventory.onOrderCreated_refused hgrants] at hchanged
    exact absurd (h (by simpa using hchanged)) hgrants

theorem announced_onOrderCreated {h : Handler} {orderId customerId totalAmount : Int}
    {items : List Item} (hh : h = .onOrderCreated orderId customerId totalAmount items) {t : Tables}
    {timestamp : String} {requestId : Option String} {acts : List HandlingAct} {d : Handling}
    (hall : ∀ a ∈ acts, a.IsAttempt)
    (hrun : exec (handlingStep h) (.start h t timestamp requestId) acts = some d) :
    d.Announced h := by
  subst hh
  set h := Handler.onOrderCreated orderId customerId totalAmount items
  refine (exec_invariant_of_meets (fun e => e.Live h ∧ e.Announced h ∧
    (e.changed = true → e.tables.stock.Grants orderId items)) ?_
    ⟨live_start h t timestamp requestId, fun hnone => (by cases hnone),
      fun hfalse => by cases hfalse⟩
    (meets_of_forall (p := HandlingAct.IsAttempt) _ hall) hrun).2.1
  rintro e a e' ⟨hlive, hannounced, hgrants⟩ ha hs
  have htried := hlive.tried hs
  have hfinds : FindsAgain h e a := by
    cases a with
    | attempt courier year publishes => exact fun hchanged _ => hgrants hchanged
    | _ => trivial
  refine ⟨htried.live hlive, htried.announced hannounced hfinds, ?_⟩
  cases htried with
  | @other a t hother =>
    cases a with
    | attempt courier year publishes => exact absurd rfl (hother courier year publishes)
    | _ => exact False.elim ha
  | raised hnone hrun => cases hrun
  | unpublished hnone hrun hlive hack htables hchanged =>
    rw [htables, hchanged]
    exact Handler.run_grants hrun hgrants
  | acked hnone hrun => exact Handler.run_grants hrun hgrants

/-- A first attempt that succeeds announces what it changed. -/
theorem announced_of_acked_first {h : Handler} {t : Tables} {timestamp : String}
    {requestId : Option String} {a : HandlingAct} {acts : List HandlingAct} {d₁ d : Handling}
    (hfirst : handlingStep h (.start h t timestamp requestId) a = some d₁)
    (hrest : exec (handlingStep h) d₁ acts = some d) (hacked : d₁.settlement = some .acked) :
    d.Announced h := by
  have htried := (live_start h t timestamp requestId).tried hfirst
  have hfinds : FindsAgain h (.start h t timestamp requestId) a := by
    cases a with
    | attempt courier year publishes => exact fun hchanged => by cases hchanged
    | _ => trivial
  have hannounced : d₁.Announced h := htried.announced (fun hnone => by cases hnone) hfinds
  obtain ⟨hsettlement, hchanged, hpublished⟩ := exec_settled (by simp [hacked]) hrest
  unfold Handling.Announced
  rwa [hsettlement, hchanged, hpublished]

/-- A release whose publication fails leaves nothing for the next attempt to announce. -/
theorem not_announced_onOrderCancelled {h : Handler} {orderId customerId : Int}
    (hh : h = .onOrderCancelled orderId customerId) {d₁ d : Handling} {a : HandlingAct}
    {acts : List HandlingAct} (hchanged : d₁.changed = true) (ha : a.IsAttempt)
    (hrows : d₁.tables.stock.reservationsOf orderId = []) (hd : d₁.Live h)
    (hrun : exec (handlingStep h) d₁ (a :: acts) = some d) : ¬ d.Announced h := by
  obtain ⟨d₂, hsecond, hrest⟩ := exec_cons_eq_some.mp hrun
  have hnot : ¬ FindsAgain h d₁ a := by
    subst hh
    cases a with
    | attempt courier year publishes => exact fun hfinds => hfinds hchanged hrows
    | _ => exact False.elim ha
  obtain ⟨hacked, hsilent⟩ := (hd.tried hsecond).silent hd hnot
  obtain ⟨hsettlement, hchanged', hpublished⟩ := exec_settled (by simp [hacked]) hrest
  unfold Handling.Announced at hsilent ⊢
  rwa [hsettlement, hchanged', hpublished]

theorem announced_onOrderCancelled_iff {h : Handler} {orderId customerId : Int}
    (hh : h = .onOrderCancelled orderId customerId) {t : Tables} {timestamp : String}
    {requestId : Option String} {acts : List HandlingAct} {d : Handling}
    (hall : ∀ a ∈ acts, a.IsAttempt)
    (hrun : exec (handlingStep h) (.start h t timestamp requestId) acts = some d)
    (hacked : d.settlement = some .acked) : d.Announced h ↔ h.AnnouncesAlone t acts := by
  cases acts with
  | nil =>
    cases hrun
    cases hacked
  | cons a rest =>
    obtain ⟨d₁, hfirst, hrest⟩ := exec_cons_eq_some.mp hrun
    have htried := (live_start h t timestamp requestId).tried hfirst
    subst hh
    cases htried with
    | @other a t hother =>
      have ha := hall a (by simp)
      cases a with
      | attempt courier year publishes => exact absurd rfl (hother courier year publishes)
      | _ => exact False.elim ha
    | raised hnone hr => cases hr
    | @unpublished courier year p t' d₁ hnone hr hlive hack htables hchanged =>
      have hrows : t.stock.reservationsOf orderId ≠ [] := Handler.finds_of_unpublished hr
      have hreleased : t' = { t with stock := t.stock.released orderId } := by
        simp only [Handler.run, Handling.start, Inventory.onOrderCancelled_released hrows] at hr
        cases hr
        rfl
      have hempty : t'.stock.reservationsOf orderId = [] := by
        rw [hreleased]
        exact Inventory.reservationsOf_released_self t.stock orderId
      have hchanged : d₁.changed = true := by
        have hne : t' ≠ t := fun heq => hrows (heq ▸ hempty)
        rw [hchanged]
        exact decide_eq_true hne
      refine iff_of_false ?_ (by simp [Handler.AnnouncesAlone, hrows])
      cases rest with
      | nil =>
        cases hrest
        exact absurd hacked hack
      | cons b rest =>
        exact not_announced_onOrderCancelled rfl hchanged (hall b (by simp))
          (htables.symm ▸ hempty) hlive hrest
    | @acked courier year publishes event t' hnone hr hok =>
      refine iff_of_true (announced_of_acked_first hfirst hrest rfl) ?_
      by_cases hrows : t.stock.reservationsOf orderId = []
      · exact .inl hrows
      · right
        simp only [Handler.run, Handling.start, Inventory.onOrderCancelled_released hrows] at hr
        cases hr
        simpa using hok

/-- The handlers of `OrderCreated` and `StockReserved` announce their change whatever
fails to be published; the one of `OrderCancelled` does so exactly when its first
attempt publishes or has nothing to release. -/
theorem announced_alone_iff {h : Handler} {t : Tables} {timestamp : String}
    {requestId : Option String} {acts : List HandlingAct} {d : Handling}
    (hall : ∀ a ∈ acts, a.IsAttempt)
    (hrun : exec (handlingStep h) (.start h t timestamp requestId) acts = some d)
    (hacked : d.settlement = some .acked) : d.Announced h ↔ h.AnnouncesAlone t acts := by
  cases hh : h with
  | onOrderCreated orderId customerId totalAmount items =>
    exact hh ▸ iff_of_true (announced_onOrderCreated hh hall hrun)
      (by simp [hh, Handler.AnnouncesAlone])
  | onOrderCancelled orderId customerId =>
    exact hh ▸ announced_onOrderCancelled_iff hh hall hrun hacked
  | onStockReserved orderId items =>
    have hfinds : ∀ e a, FindsAgain h e a := by
      intro e a
      subst hh
      cases a with
      | attempt courier year publishes => exact fun _ => trivial
      | _ => trivial
    have hannounced := (announced_iff_findsAgain hrun).mpr (meets_of_always hfinds _ _)
    exact hh ▸ iff_of_true hannounced (by simp [hh, Handler.AnnouncesAlone])

/-- The change of a message is announced exactly when every attempt after a change
finds again what it announces; without other work in between, only the first
attempt of a release matters. -/
theorem announced_iff (h : Handler) (t : Tables) (timestamp : String) (requestId : Option String)
    (acts : List HandlingAct) (d : Handling)
    (hrun : exec (handlingStep h) (.start h t timestamp requestId) acts = some d) :
    (d.Announced h ↔
      Meets (handlingStep h) (FindsAgain h) (.start h t timestamp requestId) acts) ∧
    ((∀ a ∈ acts, a.IsAttempt) → d.settlement = some .acked →
      (d.Announced h ↔ h.AnnouncesAlone t acts)) :=
  ⟨announced_iff_findsAgain hrun, fun hall hacked => announced_alone_iff hall hrun hacked⟩

def tenUnits : Tables where
  stock := ⟨Dict.ofList [(1, ⟨"SKU1", "Widget", 10⟩)], SerialTable.empty⟩
  shipments := .empty

def twoOrdered : Handler := .onOrderCreated 1 7 2000 [⟨1, 2⟩]

def firstPublishFails : List HandlingAct := [.attempt "DHL" 2026 false, .attempt "DHL" 2026 true]

theorem announced_iff_twoOrdered :
    ∃ d, exec (handlingStep twoOrdered) (.start twoOrdered tenUnits "" none) firstPublishFails =
        some d ∧ d.settlement = some .acked ∧ d.changed = true ∧ d.Announced twoOrdered := by
  refine ⟨_, rfl, rfl, rfl, ?_⟩
  refine ((announced_iff twoOrdered tenUnits "" none firstPublishFails _ rfl).2 ?_ rfl).mpr trivial
  simp [firstPublishFails, HandlingAct.IsAttempt]

/-- The first attempt releases the stock and fails to publish; the second finds no rows. -/
theorem released_without_event :
    ¬ ∀ (h : Handler) (t : Tables) (acts : List HandlingAct) (d : Handling),
      (∀ a ∈ acts, a.IsAttempt) → exec (handlingStep h) (.start h t "" none) acts = some d →
        d.Announced h := by
  intro h
  have hannounced := h (.onOrderCancelled 1 7)
    { tenUnits with stock := (Inventory.onOrderCreated tenUnits.stock 1 [⟨1, 2⟩]).2 }
    firstPublishFails _ (by simp [firstPublishFails, HandlingAct.IsAttempt]) rfl
  obtain ⟨p, hp, -⟩ := hannounced rfl rfl
  cases hp

end OrderMesh.Platform
