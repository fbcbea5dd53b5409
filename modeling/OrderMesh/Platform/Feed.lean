import Mathlib.Data.List.Sort
import OrderMesh.Platform.Recipients
import OrderMesh.Shared.Events.Dicts

namespace OrderMesh.Notifications

/-- What the service answers about a row, but for its time of creation. -/
structure NotificationOut where
  id : Int
  type : String
  recipient : String
  payload : String
  status : String
  orderId : Option Int

/-- The text of the column `payload`. -/
def payloadText (p : Payload) : String := Json.dumps (fun x : Empty => x.elim) p.dict

def Notification.out (id : Int) (row : Notification) : NotificationOut :=
  ⟨id, row.type, row.recipient, payloadText row.payload, row.status, row.orderId⟩

/-- `order_by(Notification.id.desc()).limit(limit)` -/
def listNotifications (notifications : SerialTable Notification) (limit : Nat) :
    List NotificationOut :=
  ((notifications.rows.insertionSort fun a b => b.1 ≤ a.1).take limit).map
    fun row => row.2.out row.1

def title : EventType → Option String
  | .orderCreated => some "Order Confirmation"
  | .stockReserved => some "Stock Reserved"
  | .shipmentCreated => some "Shipment Created"
  | .shipmentDelivered => some "Shipment Delivered"
  | _ => none

theorem handler_eq (t : EventType) : handler t = (title t).map handle := by
  cases t <;> rfl

theorem loads_payloadText (p : Payload) :
    Json.loads (payloadText p) = some (p.dict : Json Empty) := by
  rw [payloadText, Json.loads_dumps, Json.defaulted_self]

/-- Rows under rising keys are listed from the last one back. -/
theorem listNotifications_of_rising {notifications : SerialTable Notification}
    (h : notifications.rows.Pairwise fun a b => a.1 < b.1) (limit : Nat) :
    listNotifications notifications limit =
      (notifications.rows.reverse.take limit).map fun row => row.2.out row.1 := by
  have htotal : Std.Total fun a b : Int × Notification => b.1 ≤ a.1 :=
    ⟨fun a b => Int.le_total b.1 a.1⟩
  have htrans : IsTrans (Int × Notification) fun a b => b.1 ≤ a.1 :=
    ⟨fun _ _ _ hab hbc => Int.le_trans hbc hab⟩
  have hfalling : notifications.rows.reverse.Pairwise fun a b => b.1 ≤ a.1 :=
    List.pairwise_reverse.mpr (h.imp Int.le_of_lt)
  have hsorted : notifications.rows.insertionSort (fun a b => b.1 ≤ a.1) =
      notifications.rows.reverse := by
    apply List.Perm.eq_of_pairwise _ (List.pairwise_insertionSort _ _) hfalling
      ((List.perm_insertionSort _ _).trans (List.reverse_perm _).symm)
    intro a b ha hb hab hba
    have hmem : a ∈ notifications.rows := (List.perm_insertionSort _ _).mem_iff.mp ha
    exact notifications.mem_rows_unique hmem (List.mem_reverse.mp hb) (by omega)
  rw [listNotifications, hsorted]

end OrderMesh.Notifications

namespace OrderMesh.Platform

open Notifications (Notification NotificationOut title recipient listNotifications)
open Transition

/-- The row is what the service writes about the event. -/
def Notes (row : Int × Notification) (p : Payload) : Prop :=
  ∃ type, title p.eventType = some type ∧
    row.2 = ⟨type, recipient p, p, "SENT", some p.orderId⟩

/-- The table holds the events handled so far, in their order. -/
structure Deployment.Filed (acts : List DeploymentAct) (d : Deployment) : Prop where
  notes : List.Forall₂ Notes d.notifications.rows (acts.filterMap DeploymentAct.notified?)
  rising : d.notifications.rows.Pairwise fun a b => a.1 < b.1

theorem deploymentStep_filed {acts : List DeploymentAct} {d d' : Deployment} {a : DeploymentAct}
    (hfiled : d.Filed acts) (h : deploymentStep d a = some d') : d'.Filed (acts ++ [a]) := by
  cases a with
  | network a =>
    obtain ⟨n, -, rfl⟩ := Option.map_eq_some_iff.mp h
    refine ⟨?_, hfiled.rising⟩
    rw [List.filterMap_append]
    exact (List.append_nil (acts.filterMap DeploymentAct.notified?)).symm ▸ hfiled.notes
  | notify l =>
    simp only [deploymentStep] at h
    split_ifs at h
    obtain ⟨f, hf, rfl⟩ := Option.map_eq_some_iff.mp h
    rw [Notifications.handler_eq] at hf
    obtain ⟨type, htitle, rfl⟩ := Option.map_eq_some_iff.mp hf
    constructor
    · rw [List.filterMap_append]
      exact List.rel_append hfiled.notes (.cons ⟨type, htitle, rfl⟩ .nil)
    · apply List.pairwise_append.mpr
      refine ⟨hfiled.rising, List.pairwise_singleton _ _, fun a ha b hb => ?_⟩
      rw [List.mem_singleton.mp hb]
      exact d.notifications.bounded a ha

theorem exec_filed {acts : List DeploymentAct} {d : Deployment}
    (hrun : exec deploymentStep .empty acts = some d) : d.Filed acts := by
  apply exec_invariant_of_history Deployment.Filed ⟨.nil, .nil⟩ _ hrun
  intro _ _ _ _ _ hfiled h
  exact deploymentStep_filed hfiled h

/-- What the list says of an event. -/
structure Reports (shown : NotificationOut) (p : Payload) : Prop where
  type : title p.eventType = some shown.type
  recipient : shown.recipient = Notifications.recipient p
  status : shown.status = "SENT"
  orderId : shown.orderId = some p.orderId
  payload : Json.loads shown.payload = some (p.dict : Json Empty)

theorem Notes.reports {row : Int × Notification} {p : Payload} (h : Notes row p) :
    Reports (row.2.out row.1) p := by
  obtain ⟨type, htitle, hrow⟩ := h
  rw [hrow]
  exact ⟨htitle, rfl, rfl, rfl, Notifications.loads_payloadText p⟩

/-- Whatever the services do, the list shows the last hundred events that were handled, as
often as they were handled and newest first; every text loads as the payload that was sent,
and every order that is named was placed. -/
theorem feed_newest (acts : List DeploymentAct) (d : Deployment)
    (hrun : exec deploymentStep .empty acts = some d) :
    List.Forall₂ Reports (listNotifications d.notifications 100)
      ((acts.filterMap DeploymentAct.notified?).reverse.take 100) ∧
    (listNotifications d.notifications 100).Pairwise (fun a b => b.id < a.id) ∧
    ∀ shown ∈ listNotifications d.notifications 100, ∃ o order,
      shown.orderId = some o ∧ d.network.services.orders.get? o = some order := by
  have hfiled := exec_filed hrun
  have hmailed := exec_mailed hrun
  rw [Notifications.listNotifications_of_rising hfiled.rising]
  refine ⟨?_, ?_, ?_⟩
  · apply List.forall₂_map_left_iff.mpr
    apply (List.forall₂_take 100 (List.rel_reverse hfiled.notes)).imp
    intro row p hnotes
    exact hnotes.reports
  · apply List.pairwise_map.mpr
    have hfalling := List.pairwise_reverse.mpr hfiled.rising
    exact hfalling.sublist (List.take_sublist 100 _)
  · intro shown hshown
    obtain ⟨row, hrow, rfl⟩ := List.mem_map.mp hshown
    obtain ⟨horder, -, -, l, hl, hpayload⟩ :=
      hmailed.handled row (List.mem_reverse.mp (List.mem_of_mem_take hrow))
    obtain ⟨order, hget, -⟩ := ((exec_founded hmailed.network).sent l hl).order
    exact ⟨_, order, horder, hpayload ▸ hget⟩

theorem feed_newest_confirmation :
    ∃ d, exec deploymentStep .empty (placedOrder ++ [confirmation, confirmation]) = some d ∧
      (listNotifications d.notifications 100).length = 2 := by
  have hsome :
      (exec deploymentStep .empty (placedOrder ++ [confirmation, confirmation])).isSome := by
    decide +kernel
  obtain ⟨d, hd⟩ := Option.isSome_iff_exists.mp hsome
  exact ⟨d, hd, (feed_newest _ d hd).1.length_eq⟩

end OrderMesh.Platform
