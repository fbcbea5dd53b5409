import OrderMesh.Notification.Service
import OrderMesh.Platform.Causality

namespace OrderMesh.Platform

open Notifications (Notification handler recipient address customerId)
open Transition

structure Deployment where
  network : Network
  notifications : SerialTable Notification

def Deployment.empty : Deployment := ⟨.empty, .empty⟩

/-- The notification service handles a message that was sent, perhaps again. -/
inductive DeploymentAct
  | network (a : NetworkAct)
  | notify (l : Letter)

def deploymentStep (d : Deployment) : DeploymentAct → Option Deployment
  | .network a => (networkStep d.network a).map fun n => { d with network := n }
  | .notify l =>
      if l ∈ d.network.sent then
        (handler l.payload.eventType).map fun h =>
          { d with notifications := h d.notifications l.payload }
      else none

/-- Every notification about an order goes to the customer of the order. -/
def Deployment.Addressed (d : Deployment) : Prop :=
  ∀ row ∈ d.notifications.rows, ∀ o, row.2.orderId = some o →
    ∃ order, d.network.services.orders.get? o = some order ∧
      row.2.recipient = address (toString order.customerId)

/-- The payload carries the customer of the order it names. -/
def CarriesCustomer (orders : SerialTable Orders.Order) (p : Payload) : Prop :=
  ∃ order, orders.get? p.orderId = some order ∧ customerId p = some order.customerId

def DeploymentAct.network? : DeploymentAct → Option NetworkAct
  | .network a => some a
  | .notify _ => none

def DeploymentAct.notified? : DeploymentAct → Option Payload
  | .network _ => none
  | .notify l => some l.payload

/-- A notification is what the handlers make of its payload, and the event was sent. -/
structure Deployment.Mailed (acts : List DeploymentAct) (d : Deployment) : Prop where
  network : exec networkStep .empty (acts.filterMap DeploymentAct.network?) = some d.network
  payloads : d.notifications.rows.map (fun row => row.2.payload) =
    acts.filterMap DeploymentAct.notified?
  handled : ∀ row ∈ d.notifications.rows, row.2.orderId = some row.2.payload.orderId ∧
    row.2.recipient = recipient row.2.payload ∧ (handler row.2.payload.eventType).isSome ∧
    ∃ l ∈ d.network.sent, l.payload = row.2.payload

theorem sent_subset {n n' : Network} {a : NetworkAct} (h : networkStep n a = some n') :
    n.sent ⊆ n'.sent := by
  cases a with
  | act a =>
    obtain ⟨d, -, rfl⟩ := Option.map_eq_some_iff.mp h
    exact List.subset_append_left _ _
  | taken i =>
    simp only [networkStep] at h
    split at h
    · cases h
    · cases h
      exact List.subset_append_left _ _
  | redeliver q l =>
    simp only [networkStep] at h
    split_ifs at h
    cases h
    exact List.Subset.refl _
  | retried l =>
    simp only [networkStep] at h
    split_ifs at h
    cases h
    exact List.subset_append_left _ _
  | lost i =>
    cases h
    exact List.Subset.refl _

theorem deploymentStep_mailed {acts : List DeploymentAct} {d d' : Deployment} {a : DeploymentAct}
    (hmailed : d.Mailed acts) (h : deploymentStep d a = some d') : d'.Mailed (acts ++ [a]) := by
  cases a with
  | network a =>
    obtain ⟨n, hn, rfl⟩ := Option.map_eq_some_iff.mp h
    refine ⟨?_, ?_, fun row hrow => ?_⟩
    · rw [List.filterMap_append]
      exact exec_append_eq_some.mpr
        ⟨d.network, hmailed.network, exec_cons_eq_some.mpr ⟨n, hn, rfl⟩⟩
    · rw [List.filterMap_append, hmailed.payloads]
      exact (List.append_nil _).symm
    · obtain ⟨horder, hrecipient, hhandler, l, hl, hpayload⟩ := hmailed.handled row hrow
      exact ⟨horder, hrecipient, hhandler, l, sent_subset hn hl, hpayload⟩
  | notify l =>
    simp only [deploymentStep] at h
    split_ifs at h with hsent
    obtain ⟨f, hf, rfl⟩ := Option.map_eq_some_iff.mp h
    obtain ⟨type, rfl⟩ := Notifications.handler_eq_some hf
    refine ⟨?_, ?_, fun row hrow => ?_⟩
    · rw [List.filterMap_append]
      exact (congrArg _ (List.append_nil _)).trans hmailed.network
    · rw [List.filterMap_append, ← hmailed.payloads]
      exact List.map_append
    · rcases List.mem_append.mp hrow with hold | hnew
      · exact hmailed.handled row hold
      · rw [List.mem_singleton.mp hnew]
        exact ⟨rfl, rfl, Option.isSome_iff_exists.mpr ⟨_, hf⟩, l, hsent, rfl⟩

theorem exec_mailed {acts : List DeploymentAct} {d : Deployment}
    (hrun : exec deploymentStep .empty acts = some d) : d.Mailed acts := by
  refine exec_invariant_of_history Deployment.Mailed ⟨rfl, rfl, ?_⟩ ?_ hrun
  · intro row hrow
    cases hrow
  · exact fun _ _ _ _ _ hmailed h => deploymentStep_mailed hmailed h

/-- Among the events the service consumes, those that carry the customer. -/
theorem carriesCustomer_iff {past : Int → List Item → Prop} {d : State} {p : Payload}
    (hp : Grounded past d p) (hhandler : (handler p.eventType).isSome) :
    CarriesCustomer d.orders p ↔ p.eventType = .orderCreated := by
  constructor
  · rintro ⟨order, -, hcustomer⟩
    exact (Notifications.customerId_isSome_iff hhandler).mp (by rw [hcustomer]; rfl)
  · intro htype
    obtain ⟨order, hget, hcopies⟩ := hp.order
    cases p with
    | orderCreated o customer total items =>
      exact ⟨order, hget, congrArg some hcopies.1⟩
    | _ => cases htype

/-- The recipient is right exactly when the payload carries the customer. -/
theorem recipient_eq_iff {orders : SerialTable Orders.Order} {p : Payload} :
    (∃ order, orders.get? p.orderId = some order ∧
      recipient p = address (toString order.customerId)) ↔ CarriesCustomer orders p := by
  constructor
  · rintro ⟨order, hget, hrecipient⟩
    refine ⟨order, hget, ?_⟩
    unfold recipient at hrecipient
    cases hcustomer : customerId p with
    | none =>
      rw [hcustomer] at hrecipient
      exact absurd hrecipient (Notifications.address_unknown_ne order.customerId)
    | some c =>
      rw [hcustomer] at hrecipient
      rw [Decimal.toString_injective (Notifications.address_injective hrecipient)]
  · rintro ⟨order, hget, hcustomer⟩
    refine ⟨order, hget, ?_⟩
    unfold recipient
    rw [hcustomer]

theorem Deployment.Mailed.addressed_iff {acts : List DeploymentAct} {d : Deployment}
    (hmailed : d.Mailed acts) :
    d.Addressed ↔ ∀ row ∈ d.notifications.rows,
      CarriesCustomer d.network.services.orders row.2.payload := by
  constructor
  · intro haddressed row hrow
    obtain ⟨horder, hrecipient, -⟩ := hmailed.handled row hrow
    obtain ⟨order, hget, haddress⟩ := haddressed row hrow _ horder
    exact recipient_eq_iff.mp ⟨order, hget, hrecipient ▸ haddress⟩
  · intro hcarries row hrow o ho
    obtain ⟨horder, hrecipient, -⟩ := hmailed.handled row hrow
    obtain ⟨order, hget, haddress⟩ := recipient_eq_iff.mpr (hcarries row hrow)
    cases Option.some.inj (horder.symm.trans ho)
    exact ⟨order, hget, hrecipient.trans haddress⟩

/-- What was notified is what the rows hold. -/
theorem Deployment.Mailed.mem_payloads {acts : List DeploymentAct} {d : Deployment}
    (hmailed : d.Mailed acts) {p : Payload} :
    (∃ row ∈ d.notifications.rows, row.2.payload = p) ↔ ∃ l, .notify l ∈ acts ∧ l.payload = p := by
  have hrows : (∃ row ∈ d.notifications.rows, row.2.payload = p) ↔
      p ∈ d.notifications.rows.map fun row => row.2.payload := List.mem_map.symm
  rw [hrows, hmailed.payloads, List.mem_filterMap]
  constructor
  · rintro ⟨a, ha, hp⟩
    cases a with
    | network a => cases hp
    | notify l => exact ⟨l, ha, Option.some.inj hp⟩
  · rintro ⟨l, hl, rfl⟩
    exact ⟨.notify l, hl, rfl⟩

/-- The notifications of a run are all addressed to the orders' customers exactly when
the run notifies of nothing but created orders: of the events that the service
consumes, no other carries the customer. -/
theorem addressed_iff_onlyCreated (acts : List DeploymentAct) (d : Deployment)
    (hrun : exec deploymentStep .empty acts = some d) :
    (d.Addressed ↔ ∀ l, .notify l ∈ acts → l.payload.eventType = .orderCreated) ∧
    ∀ l ∈ d.network.sent, (handler l.payload.eventType).isSome →
      (CarriesCustomer d.network.services.orders l.payload ↔
        l.payload.eventType = .orderCreated) := by
  have hmailed := exec_mailed hrun
  have hfounded := exec_founded hmailed.network
  have hrow : ∀ row ∈ d.notifications.rows,
      (CarriesCustomer d.network.services.orders row.2.payload ↔
        row.2.payload.eventType = .orderCreated) := by
    intro row hrow
    obtain ⟨-, -, hhandler, l, hl, hpayload⟩ := hmailed.handled row hrow
    exact carriesCustomer_iff (hpayload ▸ hfounded.sent l hl) hhandler
  refine ⟨?_, fun l hl hhandler => carriesCustomer_iff (hfounded.sent l hl) hhandler⟩
  rw [hmailed.addressed_iff]
  constructor
  · intro hcarries l hl
    obtain ⟨row, hmem, hpayload⟩ := hmailed.mem_payloads.mpr ⟨l, hl, rfl⟩
    exact hpayload ▸ (hrow row hmem).mp (hcarries row hmem)
  · intro hcreated row hmem
    obtain ⟨l, hl, hpayload⟩ := hmailed.mem_payloads.mp ⟨row, hmem, rfl⟩
    exact (hrow row hmem).mpr (hpayload ▸ hcreated l hl)

/-- An order is placed and its event published. -/
def placedOrder : List DeploymentAct :=
  [.network (.act (.createProduct 1 Inventory.widget)),
    .network (.act (.createOrder 7 Orders.oneItem)), .network (.act (.work 0 .go))]

def confirmation : DeploymentAct := .notify ⟨.orderCreated 1 7 2000 [⟨1, 2⟩], 0⟩

theorem addressed_iff_onlyCreated_confirmation :
    ∃ d, exec deploymentStep .empty (placedOrder ++ [confirmation]) = some d ∧
      d.notifications.rows ≠ [] ∧ d.Addressed := by
  have hsome : (exec deploymentStep .empty (placedOrder ++ [confirmation])).isSome := by
    decide +kernel
  have hrows : ∀ d ∈ exec deploymentStep .empty (placedOrder ++ [confirmation]),
      d.notifications.rows ≠ [] := by
    decide +kernel
  obtain ⟨d, hd⟩ := Option.isSome_iff_exists.mp hsome
  refine ⟨d, hd, hrows d hd, (addressed_iff_onlyCreated _ d hd).1.mpr ?_⟩
  intro l hl
  simp only [placedOrder, confirmation, List.cons_append, List.nil_append, List.mem_cons,
    reduceCtorEq, List.not_mem_nil, or_false, false_or, DeploymentAct.notify.injEq] at hl
  rw [hl]
  rfl

/-- Inventory reserves the stock of the order and publishes `StockReserved`. -/
def stockReserved : List DeploymentAct :=
  [.stock .read, .stock .snapshot, .stock (.lock 1), .stock .finish, .go].map fun m =>
    .network (.act (.work 0 m))

theorem stockReserved_to_unknown :
    ¬ ∀ (acts : List DeploymentAct) (d : Deployment),
      exec deploymentStep .empty acts = some d → d.Addressed := by
  intro h
  let acts := placedOrder ++ stockReserved ++ [.notify ⟨.stockReserved 1 [⟨1, 2⟩], 0⟩]
  have hsome : (exec deploymentStep .empty acts).isSome := by decide +kernel
  have hrows : ∀ d ∈ exec deploymentStep .empty acts, d.notifications.rows.map Prod.snd =
      [⟨"Stock Reserved", "customer-unknown@example.com", .stockReserved 1 [⟨1, 2⟩], "SENT",
        some 1⟩] := by
    decide +kernel
  obtain ⟨d, hd⟩ := Option.isSome_iff_exists.mp hsome
  have hmem : (⟨"Stock Reserved", "customer-unknown@example.com", .stockReserved 1 [⟨1, 2⟩], "SENT",
      some 1⟩ : Notification) ∈ d.notifications.rows.map Prod.snd := by
    rw [hrows d hd]
    exact List.mem_singleton_self _
  obtain ⟨row, hrow, heq⟩ := List.mem_map.mp hmem
  obtain ⟨order, -, hrecipient⟩ := h acts d hd row hrow 1 (by rw [heq])
  rw [heq] at hrecipient
  exact Notifications.address_unknown_ne order.customerId hrecipient

end OrderMesh.Platform
