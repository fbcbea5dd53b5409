import Mathlib.Logic.Basic
import OrderMesh.Platform.Invariant

namespace OrderMesh.Platform

open Inventory (Phase)
open Transition

/-- No message is queued, in flight or dead-lettered, and nothing is running. -/
def State.AtRest (d : State) : Prop := d.flight = []

structure State.CancelledEverywhere (d : State) (o : Int) (order : Orders.Order) : Prop where
  status : order.status = .cancelled
  rows : d.stock.reservationsOf o = []
  shipments : Shipping.shipmentsOf d.shipments o = []

/-- Inventory holds the aggregated quantities of the items, and there is one shipment. -/
structure State.Fulfilled (d : State) (o : Int) (order : Orders.Order) : Prop where
  status : order.status = .confirmed ∨ order.status = .shipped
  rows : (d.stock.reservationsOf o).map Prod.snd =
    Inventory.reservationRows o (Inventory.wantedOf (linesOf order))
  shipments : (Shipping.shipmentsOf d.shipments o).length = 1

/-- Each order is in exactly one of the two shapes. -/
def State.Consistent (d : State) : Prop :=
  ∀ o order, d.orders.get? o = some order →
    Xor (d.CancelledEverywhere o order) (d.Fulfilled o order)

/-- A handler of `OrderCancelled` that looks for rows of its order finds none. -/
def FindsNoRows (d : State) : Label → Prop
  | .work i (.stock .read) =>
      match d.flight[i]? with
      | some (.queued .inventory ⟨.orderCancelled o _, _⟩) => d.stock.reservationsOf o = []
      | _ => True
  | _ => True

instance (d : State) (a : Label) : Decidable (FindsNoRows d a) := by
  unfold FindsNoRows
  split
  · split <;> infer_instance
  · infer_instance

theorem saga_off_iff {d : State} {o : Int} {order : Orders.Order}
    (hget : d.orders.get? o = some order) : (d.saga o).Off ↔ d.CancelledEverywhere o order := by
  have hstatus : (d.saga o).status = some order.status := by
    simp only [State.saga, Orders.statusOf, hget, Option.map_some]
  constructor
  · rintro ⟨hs, hrows, hshipments⟩
    rw [hstatus] at hs
    exact ⟨Option.some.inj hs, List.map_eq_nil_iff.mp hrows, List.length_eq_zero_iff.mp hshipments⟩
  · rintro ⟨hs, hrows, hshipments⟩
    exact ⟨by rw [hstatus, hs], List.map_eq_nil_iff.mpr hrows,
      List.length_eq_zero_iff.mpr hshipments⟩

theorem saga_on_iff {d : State} {o : Int} {order : Orders.Order}
    (hget : d.orders.get? o = some order) : (d.saga o).On ↔ d.Fulfilled o order := by
  have hstatus : (d.saga o).status = some order.status := by
    simp only [State.saga, Orders.statusOf, hget, Option.map_some]
  have hlines : (d.saga o).lines =
      Inventory.reservationRows o (Inventory.wantedOf (linesOf order)) := by
    simp only [State.saga, linesAt, hget]
  constructor
  · rintro ⟨hs, hrows, hshipments⟩
    rw [hstatus] at hs
    exact ⟨hs.imp Option.some.inj Option.some.inj, hrows.trans hlines, hshipments⟩
  · rintro ⟨hs, hrows, hshipments⟩
    exact ⟨hstatus ▸ hs.imp (congrArg some) (congrArg some), hrows.trans hlines.symm, hshipments⟩

theorem State.AtRest.saga {d : State} (hrest : d.AtRest) (o : Int) : (d.saga o).AtRest := by
  have hzero : ∀ q t, d.owed q t o = 0 := by
    intro q t
    unfold State.owed
    rw [hrest]
    rfl
  exact ⟨hzero .., hzero .., hzero .., hzero .., hzero ..⟩

/-- At rest the two shapes fail exactly for an order whose grant was lost. -/
theorem State.Inv.consistent_iff {d : State} (hinv : d.Inv) (hrest : d.AtRest) :
    d.Consistent ↔ ∀ o, ¬ (d.saga o).Released := by
  have hshapes : ∀ o order, d.orders.get? o = some order →
      (Xor (d.CancelledEverywhere o order) (d.Fulfilled o order) ↔ ¬ (d.saga o).Released) := by
    intro o order hget
    have hsome : (d.saga o).status ≠ none := by
      simp only [State.saga, Orders.statusOf, hget, Option.map_some]
      exact Option.some_ne_none _
    rw [← (hinv.shape o).atRest (hrest.saga o) hsome, saga_off_iff hget, saga_on_iff hget]
    constructor
    · rintro (⟨hoff, -⟩ | ⟨hon, -⟩)
      · exact .inl hoff
      · exact .inr hon
    · rintro (hoff | hon)
      · exact .inl ⟨hoff, fun hon =>
          Saga.not_on_of_off ((saga_off_iff hget).mpr hoff) ((saga_on_iff hget).mpr hon)⟩
      · exact .inr ⟨hon, fun hoff =>
          Saga.not_on_of_off ((saga_off_iff hget).mpr hoff) ((saga_on_iff hget).mpr hon)⟩
  constructor
  · intro hcon o hreleased
    obtain ⟨status, hstatus⟩ := Option.ne_none_iff_exists'.mp hreleased.status
    obtain ⟨order, hget, -⟩ := Option.map_eq_some_iff.mp hstatus
    exact (hshapes o order hget).mp (hcon o order hget) hreleased
  · intro hnone o order hget
    exact (hshapes o order hget).mpr (hnone o)

/-- The order of a release that has read rows. -/
def Work.releasing (o : Int) : Work → Bool
  | .running .inventory ⟨.orderCancelled o' _, _⟩ (.stock _) => o' = o
  | _ => false

theorem releasing_iff {d : State} {o : Int} :
    d.Releasing o ↔ ∃ w ∈ d.flight, w.releasing o = true := by
  constructor
  · rintro ⟨c, r, phase, hmem⟩
    exact ⟨_, hmem, by simp [Work.releasing]⟩
  · rintro ⟨w, hmem, hw⟩
    unfold Work.releasing at hw
    split at hw
    · rw [of_decide_eq_true hw] at hmem
      exact ⟨_, _, _, hmem⟩
    · cases hw

theorem releasing_exchange {l : Letter} {w : Work} (h : w ∈ exchange l) (o : Int) :
    w.releasing o = false := by
  obtain ⟨q, -, rfl⟩ := List.mem_map.mp h
  rfl

theorem releasing_failed (q : Queue) (l : Letter) (o : Int) : (failed q l).releasing o = false := by
  unfold failed
  split_ifs <;> rfl

theorem releasing_readOrder {d : State} {l : Letter} {w : Work} (h : w ∈ readOrder d l) (o : Int) :
    w.releasing o = false := by
  obtain ⟨status, -, rfl⟩ := mem_readOrder h
  rfl

theorem releasing_readShipment {d : State} {l : Letter} {w : Work} (h : w ∈ readShipment d l)
    (o : Int) : w.releasing o = false := by
  obtain ⟨-, ⟨shipment, -, rfl⟩ | rfl⟩ := mem_readShipment h <;> rfl

/-- The release of a transaction that goes on was under way, or has just found rows. -/
theorem releasing_afterStock {s s' : Inventory.Store} {l : Letter} {c : Inventory.Call}
    {phase phase' : Phase} {m : Inventory.Move} {w : Work} {o : Int} (hc : call l.payload = some c)
    (hmoved : Inventory.Moved s c phase m phase' s') (h : w ∈ afterStock l phase')
    (hw : w.releasing o = true) :
    (Work.running .inventory l (.stock phase)).releasing o = true ∧
      (phase = .ready → ∃ customerId, l.payload = .orderCancelled o customerId ∧ m = .read ∧
        s.reservationsOf o ≠ []) := by
  have hw' : w = .running .inventory l (.stock phase') ∧ ∀ ret, phase' ≠ .finished ret := by
    unfold afterStock at h
    split at h
    · split at h
      · rw [List.mem_singleton.mp h] at hw
        simp [Work.releasing] at hw
      · cases h
    · rename_i hnot
      exact ⟨List.mem_singleton.mp h, fun ret heq => hnot ret heq⟩
  obtain ⟨rfl, hnot⟩ := hw'
  obtain ⟨customerId, hl⟩ : ∃ customerId, l.payload = .orderCancelled o customerId := by
    unfold Work.releasing at hw
    split at hw
    · rename_i heq
      cases heq
      exact ⟨_, by rw [of_decide_eq_true hw]⟩
    · cases hw
  rw [hl] at hc
  cases hc
  refine ⟨?_, ?_⟩
  · obtain ⟨p, r⟩ := l
    cases hl
    simp [Work.releasing]
  · rintro rfl
    cases hmoved with
    | readEmpty => exact absurd rfl (hnot _)
    | readRows hrows => exact ⟨customerId, hl, rfl, hrows⟩

/-- A release starts only when a handler has found rows. -/
theorem advanced_releasing {d e : State} {i : Nat} {w : Work} {m : Move} {new : List Work} {o : Int}
    (hidle : w.releasing o = false) (hguard : FindsNoRows d (.work i m))
    (hw : d.flight[i]? = some w) (h : Advanced d w m e new) :
    ∀ x ∈ new, x.releasing o = false := by
  intro x hx
  cases h with
  | cancelled => rw [List.mem_singleton.mp hx]; rfl
  | cancelFailed => cases hx
  | requested => exact releasing_exchange hx o
  | requestFailed => cases hx
  | republished => exact releasing_exchange hx o
  | orderRead => exact releasing_readOrder hx o
  | shipmentRead => exact releasing_readShipment hx o
  | unhandled => cases hx
  | @stockRead l c m phase s hc hmoved =>
    by_contra hne
    obtain ⟨-, hfound⟩ := releasing_afterStock hc hmoved hx (by simpa using hne)
    obtain ⟨customerId, hl, rfl, hrows⟩ := hfound rfl
    obtain ⟨p, r⟩ := l
    cases hl
    simp only [FindsNoRows, hw] at hguard
    exact hrows hguard
  | queuedFailed => rw [List.mem_singleton.mp hx]; exact releasing_failed ..
  | statusSet => cases hx
  | stockMoved hc hmoved =>
    by_contra hne
    obtain ⟨hold, -⟩ := releasing_afterStock hc hmoved hx (by simpa using hne)
    rw [hold] at hidle
    cases hidle
  | shipped => rw [List.mem_singleton.mp hx]; rfl
  | shipRefused => rw [List.mem_singleton.mp hx]; exact releasing_failed ..
  | refreshed => rw [List.mem_singleton.mp hx]; rfl
  | announced => exact releasing_exchange hx o
  | runningFailed => rw [List.mem_singleton.mp hx]; exact releasing_failed ..

/-- No grant is lost, and none is about to be. -/
structure State.Safe (d : State) : Prop where
  inv : d.Inv
  idle : ∀ o, ¬ d.Releasing o
  kept : ∀ o, ¬ (d.saga o).Released

theorem step_safe {d d' : State} {a : Label} (hsafe : d.Safe) (hannounced : Announced d a)
    (hguard : FindsNoRows d a) (h : step d a = some d') : d'.Safe := by
  obtain ⟨hinv, hidle, hkept⟩ := hsafe
  have hnot : ∀ o, ∀ w ∈ d.flight, w.releasing o = false := by
    intro o w hw
    by_contra hne
    exact hidle o (releasing_iff.mpr ⟨w, hw, by simpa using hne⟩)
  refine ⟨step_inv hinv hannounced h, fun o hreleasing => ?_, fun o => ?_⟩
  · obtain ⟨x, hx, hxo⟩ := releasing_iff.mp hreleasing
    have hadded : ∀ new, (∀ w ∈ new, w.releasing o = false) → x ∈ d.flight ++ new →
        x.releasing o = false :=
      fun new hnew hmem => (List.mem_append.mp hmem).elim (hnot o x) (hnew x)
    have hfalse : x.releasing o = false := by
      cases step_stepped h with
      | refused => exact hnot o x hx
      | created => exact hadded _ (by simp [Work.releasing]) hx
      | loaded => exact hadded _ (by simp [Work.releasing]) hx
      | productCreated => exact hnot o x hx
      | shipmentUpdated => exact hadded _ (by split_ifs <;> simp [Work.releasing]) hx
      | @worked i m w e new hw hadvanced =>
        exact (Pool.mem_of_mem_replace hx).elim (hnot o x)
          (advanced_releasing (hnot o w (List.mem_of_getElem? hw)) hguard hw hadvanced x)
    rw [hfalse] at hxo
    cases hxo
  · have hs := step_saga hinv.sound hannounced h o
    rw [eq_false (hidle o)] at hs
    exact (hinv.shape o).not_released (hkept o) hs

/-- A handler that finds rows dooms the order. -/
theorem doomed_of_found {d : State} (hinv : d.Inv) {a : Label} (h : ¬ FindsNoRows d a) :
    ∃ o, (d.saga o).Doomed := by
  unfold FindsNoRows at h
  split at h
  · rename_i i
    split at h
    · rename_i o customerId retry hw
      refine ⟨o, .inr ⟨hinv.held h, ?_⟩⟩
      exact owed_pos hw (by simp [about, Payload.eventType, Payload.orderId])
    · exact absurd trivial h
  · exact absurd trivial h

theorem exec_doomed {d d' : State} {acts : List Label} {o : Int} (hinv : d.Inv)
    (hdoomed : (d.saga o).Doomed) (hannounced : Meets step Announced d acts)
    (hrun : exec step d acts = some d') : (d'.saga o).Doomed := by
  have hboth : d'.Inv ∧ (d'.saga o).Doomed := by
    refine exec_invariant_of_meets (fun d => d.Inv ∧ (d.saga o).Doomed) ?_ ⟨hinv, hdoomed⟩
      hannounced hrun
    intro u a v ⟨hu, hd⟩ ha hs
    exact ⟨step_inv hu ha hs, hd.step (step_saga hu.sound ha hs o)⟩
  exact hboth.2

/-- In a run in which what is committed is also announced, the orders at rest are
consistent exactly when no handler of `OrderCancelled` ever found rows to release. -/
theorem consistent_at_rest_iff (acts : List Label) (d : State)
    (hannounced : Meets step Announced .empty acts) (hrun : exec step .empty acts = some d)
    (hrest : d.AtRest) : d.Consistent ↔ Meets step FindsNoRows .empty acts := by
  have hinv := exec_inv hannounced hrun
  rw [hinv.consistent_iff hrest]
  constructor
  · intro hnone
    by_contra hbreak
    obtain ⟨pre, a, post, u, rfl, hpre, hfound⟩ := exists_break_of_not_meets hrun hbreak
    obtain ⟨hannouncedPre, hannouncedPost⟩ := meets_append.mp hannounced
    obtain ⟨u', hu', hrest'⟩ := exec_append_eq_some.mp hrun
    cases hu'.symm.trans hpre
    have huinv := exec_inv hannouncedPre hpre
    obtain ⟨o, hdoomed⟩ := doomed_of_found huinv hfound
    rcases exec_doomed huinv hdoomed (hannouncedPost u hpre) hrest' with hreleased | ⟨-, hpos⟩
    · exact hnone o hreleased
    · have hzero := (hrest.saga o).cancelling
      omega
  · intro hguard
    have hsafe : d.Safe := by
      refine exec_invariant_of_meets State.Safe (fun _ _ _ hs hg => step_safe hs hg.1 hg.2) ?_
        (hannounced.and hguard) hrun
      refine ⟨inv_empty, fun o => ?_, fun o hreleased => ?_⟩
      · rintro ⟨c, r, phase, hmem⟩
        cases hmem
      · exact hreleased.status rfl
    exact hsafe.kept

/-- The customer cancels while `StockReserved` is on its way: the order service
confirms the cancelled order, inventory releases its rows, shipping ships it. -/
def cancelledInFlight : List Label :=
  [.createProduct 1 Inventory.widget, .createOrder 7 Orders.oneItem, .work 0 .go,
    .work 0 (.stock .read), .work 0 (.stock .snapshot), .work 0 (.stock (.lock 1)),
    .work 0 (.stock .finish), .work 0 .go,
    .cancelOrder ⟨false, some 7⟩ 1, .work 2 .go, .work 2 .go,
    .work 0 .go, .work 2 .go,
    .work 1 (.stock .read), .work 1 (.stock .snapshot), .work 1 (.stock (.lock 1)),
    .work 1 (.stock .finish), .work 1 .go,
    .work 0 .go, .work 0 (.ship "DHL" 2026), .work 0 .go, .work 0 .go,
    .work 0 .go, .work 0 .go]

theorem cancelledInFlight_announced : Meets step Announced .empty cancelledInFlight := by
  decide +kernel

theorem cancelledInFlight_atRest : ∃ d, exec step .empty cancelledInFlight = some d ∧ d.AtRest := by
  have hsome : (exec step .empty cancelledInFlight).isSome := by decide +kernel
  have hrest : ∀ d ∈ exec step .empty cancelledInFlight, d.flight.isEmpty = true := by
    decide +kernel
  obtain ⟨d, hd⟩ := Option.isSome_iff_exists.mp hsome
  exact ⟨d, hd, List.isEmpty_iff.mp (hrest d hd)⟩

theorem consistent_at_rest_iff_cancelledInFlight :
    ∃ d, exec step .empty cancelledInFlight = some d ∧
      (d.Consistent ↔ Meets step FindsNoRows .empty cancelledInFlight) := by
  obtain ⟨d, hd, hrest⟩ := cancelledInFlight_atRest
  exact ⟨d, hd, consistent_at_rest_iff cancelledInFlight d cancelledInFlight_announced hd hrest⟩

/-- The order is shipped at rest, and inventory holds nothing for it. -/
theorem cancelled_order_shipped_without_stock :
    ¬ ∀ acts d, Meets step Announced .empty acts → exec step .empty acts = some d → d.AtRest →
      d.Consistent := by
  intro h
  obtain ⟨d, hd, hrest⟩ := cancelledInFlight_atRest
  have hrows : ∀ d ∈ exec step .empty cancelledInFlight,
      (d.stock.reservationsOf 1).isEmpty = true := by
    decide +kernel
  have horder : ∀ d ∈ exec step .empty cancelledInFlight,
      (d.orders.get? 1).map (fun order => (order.status, order.items.isEmpty)) =
        some (.shipped, false) := by
    decide +kernel
  obtain ⟨order, hget, heq⟩ := Option.map_eq_some_iff.mp (horder d hd)
  have hstatus : order.status = .shipped := congrArg Prod.fst heq
  have hitems : linesOf order ≠ [] := by
    intro hnil
    have hempty : order.items.isEmpty = false := congrArg Prod.snd heq
    rw [List.map_eq_nil_iff.mp hnil] at hempty
    cases hempty
  rcases h cancelledInFlight d cancelledInFlight_announced hd hrest 1 order hget with
    ⟨hoff, -⟩ | ⟨hon, -⟩
  · rw [hoff.status] at hstatus
    cases hstatus
  · have hnil := hon.rows
    rw [List.isEmpty_iff.mp (hrows d hd)] at hnil
    exact Inventory.reservationRows_ne_nil 1 hitems hnil.symm

end OrderMesh.Platform
