import OrderMesh.Platform.Bus

namespace OrderMesh.Platform.Bus

open Transition

variable {δ : Type}

section

variable (lib : Libraries δ)

/-- The body is no event, or its payload has no order id. -/
def unusable (m : Mail) : Bool :=
  match lib.modelValidateJson m.body with
  | none => true
  | some e => (e.payload.get? "order_id").isNone

/-- A message that no handler can use, or over whose `x-retry` `_handle` itself raises. -/
def junk (m : Mail) : Bool := m.retry.isNone || unusable lib m

/-- The `prefetch_count` of `Broker.connect`. -/
def prefetchCount : Nat := 10

/-- The work holds a message of the queue that was delivered and not acknowledged. -/
def Work.unacked (q : Queue) : Work δ → Bool
  | .running q' _ _ => q' = q
  | .backoff q' _ => q' = q
  | .stuck q' _ => q' = q
  | _ => false

def State.unacked (d : State δ) (q : Queue) : Nat := d.flight.countP (Work.unacked q)

/-- The broker delivers a message only while fewer than `prefetch_count` of its queue are
unacknowledged. -/
def State.delivers (d : State δ) : Label → Bool
  | .work i _ =>
      match d.flight[i]? with
      | some (.queued q _) => d.unacked q < prefetchCount
      | _ => true
  | _ => true

inductive OpenLabel
  | services (a : Label × Stamp)
  | put (q : Queue) (m : Mail)

/-- The services, next to others who put messages into their queues. -/
def openStep (d : State δ) : OpenLabel → Option (State δ)
  | .services a => if d.delivers a.1 then step lib d a else none
  | .put q m => some { d with flight := d.flight ++ [.queued q m] }

/-- The id that the request draws for an order fits its column. -/
def OpenLabel.DrawsFit (orders : SerialTable Orders.Order) : OpenLabel → Prop
  | .services a => Bus.DrawsFit orders a.1
  | .put _ _ => True

instance (orders : SerialTable Orders.Order) : (a : OpenLabel) → Decidable (a.DrawsFit orders)
  | .services a => inferInstanceAs (Decidable (Bus.DrawsFit orders a.1))
  | .put _ _ => .isTrue trivial

/-- What is put into a queue from outside is junk. -/
def OpenLabel.Harmless : OpenLabel → Prop
  | .put _ m => junk lib m = true
  | .services _ => True

/-- A request to one of the services, and no step of its work. -/
def request : Label → Bool
  | .work _ _ => false
  | _ => true

def OpenLabel.request? : OpenLabel → Option Label
  | .services a => if request a.1 then some a.1 else none
  | .put _ _ => none

def Work.junk : Work δ → Bool
  | .queued _ m | .backoff _ m | .dead _ m | .stuck _ m => Bus.junk lib m
  | _ => false

/-- The services without the junk. -/
def State.clean (d : State δ) : State δ := { d with flight := d.flight.filter fun w => !w.junk lib }

/-- A message that the platform takes from a queue is one that the broker delivers. -/
def State.Room (d : State δ) (s : Platform.State) (b : Label) : Prop :=
  ∀ i move q l, b = .work i move → s.flight[i]? = some (.queued q l) → d.unacked q < prefetchCount

/-- The message is still in its queue, delivered or not. -/
def State.Holds (d : State δ) (q : Queue) (m : Mail) : Prop :=
  .queued q m ∈ d.flight ∨ .stuck q m ∈ d.flight

end

variable {lib : Libraries δ} {d e : State δ} {s : Platform.State} {m : Mail}

theorem orderId_unusable {env : Envelope δ} (hm : unusable lib m = true)
    (henv : lib.modelValidateJson m.body = some env) : env.payload.get? "order_id" = none := by
  unfold unusable at hm
  rw [henv] at hm
  exact Option.isNone_iff_eq_none.mp hm

theorem Carries.not_junk {l : Letter} (hm : Carries lib m l) : junk lib m = false := by
  obtain ⟨timestamp, requestId, hbody⟩ := hm.body
  unfold junk unusable
  rw [hbody, hm.retry]
  show ((Event.create l.payload timestamp requestId).payload.dict.get? "order_id").isNone = false
  rw [get?_order_id]
  rfl

theorem Shows.not_junk {w : Work δ} {w' : Platform.Work} (h : Shows lib w w') :
    w.junk lib = false := by
  cases h with
  | queued hm => exact hm.not_junk
  | backoff hm => exact hm.not_junk
  | dead hm => exact hm.not_junk
  | _ => rfl

theorem readOrder_unusable (hm : unusable lib m = true) :
    readOrder lib d m = none ∨ readOrder lib d m = some [] := by
  unfold readOrder
  cases henv : lib.modelValidateJson m.body with
  | none => exact .inl rfl
  | some env =>
    simp only [bind, Option.bind_some]
    cases target env.eventType with
    | none => exact .inr rfl
    | some status =>
      have hnone : lib.orderId env.payload = none := by
        rw [Libraries.orderId, orderId_unusable hm henv]
        rfl
      rw [hnone]
      exact .inl rfl

theorem readShipment_unusable (hm : unusable lib m = true) (stamp : Stamp) :
    readShipment lib d stamp m = none ∨ readShipment lib d stamp m = some [] := by
  unfold readShipment
  cases henv : lib.modelValidateJson m.body with
  | none => exact .inl rfl
  | some env =>
    simp only [bind, Option.bind_some, orderId_unusable hm henv, Option.bind_none]
    split_ifs
    · exact .inl rfl
    · exact .inr rfl

theorem ask_unusable (hm : unusable lib m = true) : ask lib m = none ∨ ask lib m = some none := by
  unfold ask
  cases henv : lib.modelValidateJson m.body with
  | none => exact .inl rfl
  | some env =>
    simp only [bind, Option.bind_some, orderId_unusable hm henv, Option.bind_none]
    split_ifs
    · exact .inl rfl
    · exact .inl rfl
    · exact .inr rfl

/-- A mail of junk stays one when it is counted again. -/
theorem junk_failed (hm : unusable lib m = true) (q : Queue) :
    ∀ w ∈ [failed q m], Work.junk lib w = true := by
  intro w hw
  rw [List.mem_singleton.mp hw]
  have hjunk : ∀ retry, junk lib { m with retry } = true := by
    intro retry
    have hbody : unusable lib { m with retry } = true := hm
    rw [junk, hbody, Bool.or_true]
  unfold failed
  split
  · exact hjunk m.retry
  · split_ifs
    · exact hjunk m.retry
    · exact hjunk _
    · exact hjunk m.retry

theorem junk_orFailed (hm : unusable lib m = true) (q : Queue) {work : Option (List (Work δ))}
    (h : work = none ∨ work = some []) : ∀ w ∈ orFailed q m work, w.junk lib = true := by
  rcases h with rfl | rfl
  · exact junk_failed hm q
  · intro w hw
    cases hw

/-- The handler of junk changes no table and leaves only junk behind. -/
theorem handle_unusable (hm : unusable lib m = true) {q : Queue} {stamp : Stamp} {move : Move}
    {new : List (Work δ)} (h : handle lib stamp d m q move = some (e, new)) :
    e = d ∧ ∀ w ∈ new, w.junk lib = true := by
  cases move with
  | fail =>
    have heq : some (d, [failed q m]) = some (e, new) := by cases q <;> exact h
    cases heq
    exact ⟨rfl, junk_failed hm q⟩
  | ship courier year => cases q <;> cases h
  | go =>
    cases q with
    | order =>
      cases h
      exact ⟨rfl, junk_orFailed hm .order (readOrder_unusable hm)⟩
    | shipping =>
      cases h
      exact ⟨rfl, junk_orFailed hm .shipping (readShipment_unusable hm stamp)⟩
    | inventory =>
      rcases ask_unusable hm with hask | hask
      · simp only [handle, hask] at h
        cases h
        exact ⟨rfl, junk_failed hm .inventory⟩
      · simp only [handle, hask] at h
        cases h
        exact ⟨rfl, fun w hw => by cases hw⟩
  | stock move =>
    cases q with
    | inventory =>
      rcases ask_unusable hm with hask | hask
      · simp only [handle, hask] at h
        cases h
      · simp only [handle, hask] at h
        cases h
    | _ => cases h

/-- A step of junk changes no table and leaves only junk behind. -/
theorem advance_junk {w : Work δ} (hw : w.junk lib = true) {stamp : Stamp} {move : Move}
    {new : List (Work δ)} (h : advance lib stamp d w move = some (e, new)) :
    e = d ∧ ∀ w ∈ new, w.junk lib = true := by
  cases w with
  | cancelling id order => cases hw
  | requested env => cases hw
  | running q m stage => cases hw
  | dead q m => cases move <;> cases h
  | stuck q m =>
    cases move with
    | fail =>
      cases h
      refine ⟨rfl, fun w hnew => ?_⟩
      rw [List.mem_singleton.mp hnew]
      exact hw
    | _ => cases h
  | backoff q m =>
    cases move with
    | go =>
      cases h
      refine ⟨rfl, fun w hw' => ?_⟩
      obtain ⟨q, -, rfl⟩ := List.mem_map.mp hw'
      exact hw
    | _ => cases h
  | queued q m =>
    cases hretry : m.retry with
    | none =>
      simp only [advance, hretry] at h
      split_ifs at h
      cases h
      refine ⟨rfl, fun w hnew => ?_⟩
      rw [List.mem_singleton.mp hnew]
      exact hw
    | some retry =>
      have hbody : unusable lib m = true := by
        rw [Work.junk, junk, hretry] at hw
        exact hw
      simp only [advance, hretry] at h
      exact handle_unusable hbody h

/-- A message over whose `x-retry` `_handle` raises stays in its queue. -/
theorem advance_refused {q : Queue} (hm : m.retry = none) {w : Work δ}
    (hw : w = .queued q m ∨ w = .stuck q m) {stamp : Stamp} {move : Move} {new : List (Work δ)}
    (h : advance lib stamp d w move = some (e, new)) :
    .queued q m ∈ new ∨ .stuck q m ∈ new := by
  rcases hw with rfl | rfl
  · simp only [advance, hm] at h
    split_ifs at h
    cases h
    exact .inr List.mem_cons_self
  · cases move with
    | fail =>
      cases h
      exact .inl List.mem_cons_self
    | _ => cases h

theorem locks_junk {w : Work δ} (h : w.junk lib = true) : w.locks = [] := by
  cases w with
  | running q m stage => cases h
  | _ => rfl

/-- Junk holds no locks. -/
theorem lockFree_clean (d : State δ) (move : Inventory.Move) :
    (d.clean lib).lockFree move = d.lockFree move := by
  cases move with
  | lock productId =>
    show ((d.flight.filter fun w => !w.junk lib).all fun w => productId ∉ w.locks) =
      d.flight.all fun w => productId ∉ w.locks
    rw [Bool.eq_iff_iff, List.all_eq_true, List.all_eq_true]
    constructor
    · intro hfree w hw
      cases hjunk : w.junk lib with
      | true => simp [locks_junk hjunk]
      | false => exact hfree w (List.mem_filter.mpr ⟨hw, by simp [hjunk]⟩)
    · exact fun hfree w hw => hfree w (List.mem_filter.mp hw).1
  | _ => rfl

theorem filter_shown {new : List (Work δ)} {new' : List Platform.Work}
    (h : List.Forall₂ (Shows lib) new new') : (new.filter fun w => !w.junk lib) = new := by
  rw [List.filter_eq_self]
  intro w hw
  obtain ⟨w', -, hshows⟩ := Pool.rel_mem h hw
  simp [hshows.not_junk]

theorem filter_junk {new : List (Work δ)} (h : ∀ w ∈ new, w.junk lib = true) :
    (new.filter fun w => !w.junk lib) = [] := by
  rw [List.filter_eq_nil_iff]
  intro w hw
  simp [h w hw]

/-- A request does not see the junk. -/
theorem step_clean {a : Label × Stamp} (ha : request a.1 = true) :
    step lib (d.clean lib) a = (step lib d a).map (State.clean lib) := by
  obtain ⟨a, stamp⟩ := a
  cases a with
  | work i move => cases ha
  | createOrder customerId payload =>
    simp only [step, State.clean]
    cases Orders.newOrder customerId payload with
    | none => rfl
    | some order => simp [State.clean, Work.junk]
  | cancelOrder caller id =>
    simp only [step, State.clean]
    cases Orders.loadCancellable d.orders caller id with
    | error refusal => rfl
    | ok order => simp [State.clean, Work.junk]
  | createProduct id payload =>
    simp only [step, State.clean]
    cases Inventory.createProduct d.stock id payload with
    | none => rfl
    | some r => rfl
  | updateShipment id status =>
    simp only [step, State.clean]
    cases d.shipments.get? id with
    | none => rfl
    | some shipment =>
      by_cases hdelivered : status = .delivered
      · simp [State.clean, Work.junk, hdelivered]
      · simp [State.clean, hdelivered]

theorem Related.sameTables_clean (h : Related lib (d.clean lib) s) : SameTables d s :=
  ⟨h.orders, h.stock, h.shipments, h.ids, h.shipped⟩

theorem Related.lockFree_clean (h : Related lib (d.clean lib) s) (move : Inventory.Move) :
    d.lockFree move = s.lockFree move :=
  (Bus.lockFree_clean d move).symm.trans (h.lockFree move)

/-- Junk in flight may come and go. -/
theorem Related.clean_of_flight (h : Related lib (d.clean lib) s) {flight : List (Work δ)}
    (hflight : (flight.filter fun w => !w.junk lib) = (d.clean lib).flight) :
    Related lib (State.clean lib { d with flight }) s := by
  unfold State.clean
  rw [hflight]
  exact h

/-- A step of the platform's work, with junk around. -/
theorem SameStep.clean {r : State δ × List (Work δ)} {r' : Platform.State × List Platform.Work}
    (hr : SameStep lib r r') {flight : List (Work δ)} {flight' : List Platform.Work} {j : Nat}
    (hflight : (flight.filter fun w => !w.junk lib) =
      Pool.replace (d.clean lib).flight j (r.2.filter fun w => !w.junk lib))
    (hshown : List.Forall₂ (Shows lib) (d.clean lib).flight flight') :
    Related lib (State.clean lib { r.1 with flight })
      { r'.1 with flight := Pool.replace flight' j r'.2 } := by
  unfold State.clean
  rw [hflight, filter_shown hr.2]
  exact hr.1.withFlight (Pool.rel_replace hshown j hr.2)

/-- A step of the work in flight is one of junk, or one of the platform's work. -/
theorem work_clean (h : Related lib (d.clean lib) s) {i : Nat} {move : Move} {stamp : Stamp}
    (hstep : step lib d (.work i move, stamp) = some e) :
    ∃ bs t, exec Platform.step s bs = some t ∧ Related lib (e.clean lib) t ∧
      bs.filter request = [] := by
  simp only [step] at hstep
  cases hw : d.flight[i]? with
  | none =>
    rw [hw] at hstep
    cases hstep
  | some w =>
    rw [hw] at hstep
    obtain ⟨⟨d', new⟩, hadvance, rfl⟩ := Option.map_eq_some_iff.mp hstep
    cases hjunk : w.junk lib with
    | true =>
      obtain ⟨rfl, hnew⟩ := advance_junk hjunk hadvance
      refine ⟨[], s, rfl, h.clean_of_flight ?_, rfl⟩
      rw [Pool.filter_replace_of_neg hw (by simp [hjunk]), filter_junk hnew, List.append_nil]
      rfl
    | false =>
      obtain ⟨j, hj, hreplace⟩ :=
        Pool.exists_filter_replace (p := fun w => !w.junk lib) hw (by simp [hjunk])
      have hshown : Option.Rel (Shows lib) (some w) s.flight[j]? :=
        hj ▸ Pool.rel_getElem? h.flight j
      generalize hj' : s.flight[j]? = o at hshown
      cases hshown with
      | @some _ w' hshows =>
        have hrel := advance_rel h.sameTables_clean h.lockFree_clean hshows stamp move
        rw [hadvance] at hrel
        generalize hadvance' : Platform.advance s w' move = o' at hrel
        cases hrel with
        | @some _ r hr =>
          have hrun : Platform.step s (.work j move) =
              some { r.1 with flight := Pool.replace s.flight j r.2 } := by
            simp only [Platform.step, hj', hadvance', Option.map_some]
          exact ⟨[.work j move], _, exec_cons_eq_some.mpr ⟨_, hrun, rfl⟩,
            hr.clean (hreplace new) h.flight, rfl⟩

/-- A request leaves the work in flight alone, and may add to it. -/
theorem flight_request {a : Label × Stamp} (ha : request a.1 = true)
    (h : step lib d a = some e) : ∃ new, e.flight = d.flight ++ new := by
  obtain ⟨a, stamp⟩ := a
  cases a with
  | work i move => cases ha
  | createOrder customerId payload =>
    simp only [step] at h
    split at h
    · cases h
      exact ⟨[], (List.append_nil _).symm⟩
    · cases h
      exact ⟨_, rfl⟩
  | cancelOrder caller id =>
    simp only [step] at h
    split at h
    · cases h
      exact ⟨[], (List.append_nil _).symm⟩
    · cases h
      exact ⟨_, rfl⟩
  | createProduct id payload =>
    simp only [step] at h
    split at h
    · cases h
      exact ⟨[], (List.append_nil _).symm⟩
    · cases h
      exact ⟨[], (List.append_nil _).symm⟩
  | updateShipment id status =>
    simp only [step] at h
    split at h
    · cases h
      exact ⟨[], (List.append_nil _).symm⟩
    · cases h
      exact ⟨_, rfl⟩

theorem State.Holds.append {q : Queue} (h : d.Holds q m) {new : List (Work δ)}
    (hflight : e.flight = d.flight ++ new) : e.Holds q m := by
  unfold State.Holds at h ⊢
  rw [hflight]
  exact h.imp (List.mem_append_left new) (List.mem_append_left new)

theorem State.Holds.work {q : Queue} (h : d.Holds q m) (hm : m.retry = none) {i : Nat} {move : Move}
    {stamp : Stamp} (hstep : step lib d (.work i move, stamp) = some e) : e.Holds q m := by
  simp only [step] at hstep
  cases hw : d.flight[i]? with
  | none =>
    rw [hw] at hstep
    cases hstep
  | some w =>
    rw [hw] at hstep
    obtain ⟨⟨d', new⟩, hadvance, rfl⟩ := Option.map_eq_some_iff.mp hstep
    by_cases hmine : w = .queued q m ∨ w = .stuck q m
    · exact (advance_refused hm hmine hadvance).imp (List.mem_append_right _)
        (List.mem_append_right _)
    · have hqueued : Work.queued q m ≠ w := fun heq => hmine (.inl heq.symm)
      have hstuck : Work.stuck q m ≠ w := fun heq => hmine (.inr heq.symm)
      exact h.imp (fun hq => Pool.mem_replace_of_ne hq hw hqueued new)
        fun hs => Pool.mem_replace_of_ne hs hw hstuck new

theorem step_of_openStep {a : Label × Stamp} (h : openStep lib d (.services a) = some e) :
    step lib d a = some e := by
  simp only [openStep] at h
  split_ifs at h
  exact h

/-- What `_handle` raises over stays in its queue. -/
theorem openStep_holds {q : Queue} (hm : m.retry = none) {a : OpenLabel} (h : d.Holds q m)
    (hstep : openStep lib d a = some e) : e.Holds q m := by
  cases a with
  | put q' m' =>
    cases hstep
    exact h.append rfl
  | services a =>
    have hservices := step_of_openStep hstep
    cases hrequest : request a.1 with
    | true =>
      obtain ⟨new, hnew⟩ := flight_request hrequest hservices
      exact h.append hnew
    | false =>
      obtain ⟨a, stamp⟩ := a
      cases a with
      | work i move => exact h.work hm hservices
      | _ => cases hrequest

theorem exec_holds {q : Queue} (hm : m.retry = none) {as : List OpenLabel}
    (hput : .put q m ∈ as) (hrun : exec (openStep lib) d as = some e) : e.Holds q m := by
  obtain ⟨before, after, rfl⟩ := List.append_of_mem hput
  obtain ⟨u, -, hrest⟩ := exec_append_eq_some.mp hrun
  obtain ⟨v, hv, hafter⟩ := exec_cons_eq_some.mp hrest
  cases hv
  refine exec_invariant (fun u => u.Holds q m) (fun _ _ _ h hstep => openStep_holds hm h hstep) ?_
    hafter
  exact .inl (List.mem_append_right _ List.mem_cons_self)

/-- One step with junk around is a step of the platform, or none. -/
theorem openStep_clean (h : Related lib (d.clean lib) s) {a : OpenLabel} (ha : a.Harmless lib)
    (hid : a.DrawsFit d.orders) (hstep : openStep lib d a = some e) :
    ∃ bs t, exec Platform.step s bs = some t ∧ Related lib (e.clean lib) t ∧
      bs.filter request = a.request?.toList := by
  cases a with
  | put q m =>
    cases hstep
    have hjunk : ∀ w ∈ [Work.queued q m], Work.junk lib w = true := by
      intro w hw
      rw [List.mem_singleton.mp hw]
      exact ha
    refine ⟨[], s, rfl, h.clean_of_flight ?_, rfl⟩
    rw [List.filter_append, filter_junk hjunk, List.append_nil]
    rfl
  | services a =>
    have hservices := step_of_openStep hstep
    cases hrequest : request a.1 with
    | true =>
      have hrel := step_rel h a hid
      rw [step_clean hrequest, hservices] at hrel
      generalize ho : Platform.step s a.1 = o at hrel
      cases hrel with
      | some ht =>
        refine ⟨[a.1], _, exec_cons_eq_some.mpr ⟨_, ho, rfl⟩, ht, ?_⟩
        simp [OpenLabel.request?, hrequest]
    | false =>
      obtain ⟨a, stamp⟩ := a
      cases a with
      | work i move =>
        exact work_clean h hservices
      | _ => cases hrequest

theorem exec_clean (h : Related lib (d.clean lib) s) {as : List OpenLabel}
    (has : ∀ a ∈ as, a.Harmless lib)
    (hids : Meets (openStep lib) (fun d a => a.DrawsFit d.orders) d as)
    (hrun : exec (openStep lib) d as = some e) :
    ∃ bs t, exec Platform.step s bs = some t ∧ Related lib (e.clean lib) t ∧
      bs.filter request = as.filterMap OpenLabel.request? := by
  induction as generalizing d s with
  | nil =>
    cases hrun
    exact ⟨[], s, rfl, h, rfl⟩
  | cons a as ih =>
    obtain ⟨u, hu, hrest⟩ := exec_cons_eq_some.mp hrun
    obtain ⟨bs, t, hbs, ht, hfilter⟩ := openStep_clean h (has a List.mem_cons_self) hids.1 hu
    obtain ⟨cs, v, hcs, hv, hfilter'⟩ :=
      ih ht (fun b hb => has b (List.mem_cons_of_mem a hb)) (hids.2 u hu) hrest
    refine ⟨bs ++ cs, v, exec_append_eq_some.mpr ⟨t, hbs, hcs⟩, hv, ?_⟩
    rw [List.filter_append, hfilter, hfilter', List.filterMap_cons]
    cases a.request? <;> rfl

/-- A step that the platform can take, the services can take with junk around, unless the broker
holds the message back. -/
theorem openStep_progress (h : Related lib (d.clean lib) s) {b : Label} {t : Platform.State}
    (hb : Platform.step s b = some t) (hid : DrawsFit s.orders b) (hroom : d.Room s b)
    (stamp : Stamp) :
    ∃ a e, openStep lib d (.services (a, stamp)) = some e ∧ Related lib (e.clean lib) t ∧
      [a].filter request = [b].filter request := by
  cases hrequest : request b with
  | true =>
    have hdelivers : d.delivers b = true := by
      cases b with
      | work i move => cases hrequest
      | _ => rfl
    have hrel := step_rel h (b, stamp) (h.orders ▸ hid)
    rw [step_clean hrequest, hb] at hrel
    generalize ho : step lib d (b, stamp) = o at hrel
    cases o with
    | none => cases hrel
    | some e =>
      cases hrel with
      | some ht => exact ⟨b, e, (if_pos hdelivers).trans ho, ht, rfl⟩
  | false =>
    cases b with
    | work j move =>
      simp only [Platform.step] at hb
      have hshown := Pool.rel_getElem? h.flight j
      cases hj : s.flight[j]? with
      | none =>
        rw [hj] at hb
        cases hb
      | some w' =>
        rw [hj] at hb hshown
        obtain ⟨⟨s', new'⟩, hadvance', rfl⟩ := Option.map_eq_some_iff.mp hb
        generalize hw : (d.clean lib).flight[j]? = o at hshown
        cases hshown with
        | @some w _ hshows =>
          obtain ⟨i, hi, hreplace⟩ :=
            Pool.exists_replace_filter (p := fun w => !w.junk lib) (l := d.flight) hw
          have hrel := advance_rel h.sameTables_clean h.lockFree_clean hshows stamp move
          rw [hadvance'] at hrel
          generalize hadvance : advance lib stamp d w move = o' at hrel
          cases hrel with
          | @some r _ hr =>
            have hdelivers : d.delivers (.work i move) = true := by
              unfold State.delivers
              simp only [hi]
              cases hshows with
              | @queued q m l hm => exact decide_eq_true (hroom j move q l rfl hj)
              | _ => rfl
            refine ⟨.work i move, { r.1 with flight := Pool.replace d.flight i r.2 }, ?_,
              hr.clean (hreplace r.2) h.flight, rfl⟩
            refine (if_pos hdelivers).trans ?_
            simp only [step, hi, hadvance, Option.map_some]
    | _ => cases hrequest

/-- Junk in the queues of the services changes nothing but their room: the services do to the same
requests what the platform does without it, and can go on as the platform can while the queues
have room. What `_handle` itself raises over stays in its queue and takes room there. -/
theorem junk_harmless {as : List OpenLabel} (has : ∀ a ∈ as, a.Harmless lib)
    (hids : Meets (openStep lib) (fun d a => a.DrawsFit d.orders) .empty as)
    (hrun : exec (openStep lib) .empty as = some d) :
    (∃ bs s, exec Platform.step .empty bs = some s ∧
      bs.filter request = as.filterMap OpenLabel.request? ∧ Related lib (d.clean lib) s ∧
      ∀ b t stamp, Platform.step s b = some t → DrawsFit s.orders b → d.Room s b →
        ∃ a e, openStep lib d (.services (a, stamp)) = some e ∧ Related lib (e.clean lib) t ∧
          [a].filter request = [b].filter request) ∧
      ∀ q m, .put q m ∈ as → m.retry = none → d.Holds q m := by
  obtain ⟨bs, s, hbs, hs, hfilter⟩ := exec_clean related_empty has hids hrun
  refine ⟨⟨bs, s, hbs, hfilter, hs, ?_⟩, fun q m hput hm => exec_holds hm hput hrun⟩
  intro b t stamp hb hid hroom
  exact openStep_progress hs hb hid hroom stamp

/-- A text that is no event fails twice, an event that names no order once, and the count of a
third message cannot be read, while an order is placed. -/
def junkBetween : List OpenLabel :=
  [.put .inventory ⟨"no event", "OrderCreated", some 0⟩, .services (.work 0 .go, "", none),
    .services (.createOrder 7 Orders.oneItem, "", none), .services (.work 0 .go, "", none),
    .put .shipping ⟨plainLibraries.modelDumpJson ⟨"StockReserved", "", none, .obj []⟩,
      "StockReserved", some 2⟩,
    .services (.work 1 .go, "", none), .services (.work 1 .go, "", none),
    .put .order ⟨"no event", "StockReserved", none⟩, .services (.work 3 .go, "", none)]

theorem junk_harmless_junkBetween :
    ∃ d, exec (openStep plainLibraries) .empty junkBetween = some d ∧
      (∃ bs s, exec Platform.step .empty bs = some s ∧
        bs.filter request = junkBetween.filterMap OpenLabel.request? ∧
        Related plainLibraries (d.clean plainLibraries) s) ∧
      d.Holds .order ⟨"no event", "StockReserved", none⟩ := by
  have hrun : (exec (openStep plainLibraries) .empty junkBetween).isSome := by decide +kernel
  have hids : Meets (openStep plainLibraries) (fun d a => a.DrawsFit d.orders) .empty
      junkBetween := by decide +kernel
  obtain ⟨d, hd⟩ := Option.isSome_iff_exists.mp hrun
  have hharmless : ∀ a ∈ junkBetween, a.Harmless plainLibraries := by
    intro a ha
    simp only [junkBetween, List.mem_cons, List.not_mem_nil, or_false] at ha
    rcases ha with rfl | rfl | rfl | rfl | rfl | rfl | rfl | rfl | rfl
    · show junk plainLibraries _ = true
      decide +kernel
    · trivial
    · trivial
    · trivial
    · show junk plainLibraries _ = true
      decide +kernel
    · trivial
    · trivial
    · rfl
    · trivial
  obtain ⟨⟨bs, s, hbs, hfilter, hs, -⟩, hholds⟩ := junk_harmless hharmless hids hd
  exact ⟨d, hd, ⟨bs, s, hbs, hfilter, hs⟩, hholds .order _ (by simp [junkBetween]) rfl⟩

end OrderMesh.Platform.Bus
