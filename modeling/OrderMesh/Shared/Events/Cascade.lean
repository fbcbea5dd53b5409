import OrderMesh.Library.Branching
import OrderMesh.Library.Pool
import OrderMesh.Library.Transition
import OrderMesh.Shared.Events.Handle

namespace OrderMesh

open Branching Transition

variable {Q B V E : Type}

/-- The messages in the queues, and in `pending` the copies whose backoff is running. -/
structure Cascade (Q B V : Type) where
  queues : Q → List (Incoming B V)
  pending : List (Incoming B V)
  dead : List (Q × Incoming B V)
  deliveries : Nat
  publications : Nat

inductive CascadeAct (Q : Type)
  | deliver (q : Q) (i : Nat) (run : HandlerRun)
  | publish (i : Nat)

def Operation.copy? : Operation B V → Option (Incoming B V)
  | .publish copy => some copy
  | _ => none

def Operation.isReject : Operation B V → Bool
  | .reject => true
  | _ => false

/-- Hand a copy to every queue that is bound to its key. -/
def toBound (consumers : Q → Consumer) (queues : Q → List (Incoming B V)) (m : Incoming B V)
    (q : Q) : List (Incoming B V) :=
  queues q ++ if m.routingKey ∈ (consumers q).eventTypes then [m] else []

variable (w : Wire B V E) (consumers : Q → Consumer) (limit : Int)

def cascadeStep [DecidableEq Q] (d : Cascade Q B V) : CascadeAct Q → Option (Cascade Q B V)
  | .deliver q i run => do
      let m ← (d.queues q)[i]?
      let operations := (handle w (consumers q) limit m run).operations
      return {
        queues := Function.update d.queues q ((d.queues q).eraseIdx i)
        pending := d.pending ++ operations.filterMap Operation.copy?
        dead := d.dead ++ if operations.any Operation.isReject then [(q, m)] else []
        deliveries := d.deliveries + 1
        publications := d.publications }
  | .publish i => do
      let m ← d.pending[i]?
      return { d with
        queues := toBound consumers d.queues m
        pending := d.pending.eraseIdx i
        publications := d.publications + 1 }

/-- One message has been published. -/
def Cascade.start (m : Incoming B V) : Cascade Q B V :=
  ⟨toBound consumers (fun _ => []) m, [], [], 0, 0⟩

/-- A run of `_handle` ends without a copy, with a dead letter, or with one copy. -/
inductive EndsWith (w : Wire B V E) (m : Incoming B V) (limit r : Int)
    (operations : List (Operation B V)) : Prop
  | settled (hcopies : operations.filterMap Operation.copy? = [])
      (hreject : operations.any Operation.isReject = false)
  | rejected (hcopies : operations.filterMap Operation.copy? = [])
      (hreject : operations.any Operation.isReject = true) (hlimit : r + 1 ≥ limit)
  | republished {copy} (hcopy : m.CopyOf w (r + 1) copy)
      (hcopies : operations.filterMap Operation.copy? = [copy])
      (hreject : operations.any Operation.isReject = false) (hlimit : r + 1 < limit)

theorem failed_endsWith (w : Wire B V E) (m : Incoming B V) (limit r : Int) :
    EndsWith w m limit r (failed w limit m r).operations := by
  rcases failed_cases w limit m r with ⟨hlimit, heq⟩ | ⟨-, -, heq⟩ | ⟨hbelow, -, copy, hcopy, heq⟩
  · rw [heq]
    exact .rejected rfl rfl hlimit
  · rw [heq]
    exact .settled rfl rfl
  · rw [heq]
    exact .republished (Incoming.copyOf_republished w hcopy) rfl rfl hbelow

theorem handle_endsWith {w : Wire B V E} (c : Consumer) (limit : Int) {m : Incoming B V} {r : Int}
    (hretry : m.retry w = some r) (run : HandlerRun) :
    EndsWith w m limit r (handle w c limit m run).operations := by
  rcases body_cases w c m with hreg | hun | hnone
  · rw [handle_registered hretry hreg]
    cases run with
    | raises => exact failed_endsWith w m limit r
    | returns => exact .settled rfl rfl
    | escapes => exact .settled rfl rfl
    | hangs => exact .settled rfl rfl
  · rw [handle_unregistered hretry hun]
    exact .settled rfl rfl
  · rw [handle_invalid hretry hnone]
    exact failed_endsWith w m limit r

/-- A copy of the message with `r` failed attempts behind it. -/
structure Incoming.Retried (m : Incoming B V) (limit : Nat) (x : Incoming B V) (r : Nat) :
    Prop where
  retry : x.retry w = some (r : Int)
  below : r < limit
  routingKey : x.routingKey = m.routingKey

def Cascade.Live (m : Incoming B V) (limit : Nat) (d : Cascade Q B V) : Prop :=
  (∀ q, ∀ x ∈ d.queues q, ∃ r, m.Retried w limit x r) ∧
    ∀ x ∈ d.pending, ∃ r, m.Retried w limit x r

/-- The attempts that `x-retry` leaves. -/
def Incoming.left (limit : Nat) (x : Incoming B V) : Nat := limit - ((x.retry w).getD 0).toNat

/-- The number of queues that are bound to a key. -/
def boundTo [Fintype Q] (key : String) : Nat :=
  (Finset.univ.filter fun q => key ∈ (consumers q).eventTypes).card

/-- What the run has cost so far. -/
def Cascade.cost {m : Nat} (t : Tariff m) (d : Cascade Q B V) : Nat :=
  t.attempt * d.deliveries + t.giveUp * d.dead.length + t.ask * d.publications

/-- What the copies that are left can still cost. -/
def Cascade.weight [Fintype Q] {m : Nat} (t : Tariff m) (limit : Nat) (d : Cascade Q B V) : Nat :=
  load (fun x => t.queued (x.left w limit)) d.queues +
    (d.pending.map fun x => t.asked (x.left w limit)).sum

section

variable {w} {consumers} {m x : Incoming B V} {limit r : Nat}

theorem Incoming.Retried.left_eq (h : m.Retried w limit x r) : x.left w limit = limit - r := by
  simp [Incoming.left, h.retry]

theorem Incoming.Retried.republished (h : m.Retried w limit x r)
    (hlimit : (r : Int) + 1 < limit) {y : Incoming B V} (hy : x.CopyOf w (r + 1) y) :
    m.Retried w limit y (r + 1) where
  retry := by simpa using hy.retry
  below := by omega
  routingKey := hy.routingKey.trans h.routingKey

variable [DecidableEq Q] {d d' : Cascade Q B V}

/-- Everything one step can do with live copies. -/
inductive Cascade.Stepped (w : Wire B V E) (consumers : Q → Consumer) (m : Incoming B V)
    (limit : Nat) (d : Cascade Q B V) : Cascade Q B V → Prop
  | settled {q i x r} (hx : (d.queues q)[i]? = some x) (hcopy : m.Retried w limit x r) :
      Stepped w consumers m limit d { d with
        queues := Function.update d.queues q ((d.queues q).eraseIdx i)
        deliveries := d.deliveries + 1 }
  | rejected {q i x r} (hx : (d.queues q)[i]? = some x) (hcopy : m.Retried w limit x r)
      (hlimit : r + 1 = limit) :
      Stepped w consumers m limit d { d with
        queues := Function.update d.queues q ((d.queues q).eraseIdx i)
        dead := d.dead ++ [(q, x)]
        deliveries := d.deliveries + 1 }
  | retried {q i x y r} (hx : (d.queues q)[i]? = some x) (hcopy : m.Retried w limit x r)
      (hnext : m.Retried w limit y (r + 1)) :
      Stepped w consumers m limit d { d with
        queues := Function.update d.queues q ((d.queues q).eraseIdx i)
        pending := d.pending ++ [y]
        deliveries := d.deliveries + 1 }
  | published {i x r} (hx : d.pending[i]? = some x) (hcopy : m.Retried w limit x r) :
      Stepped w consumers m limit d { d with
        queues := toBound consumers d.queues x
        pending := d.pending.eraseIdx i
        publications := d.publications + 1 }

theorem Cascade.Live.stepped (hlive : d.Live w m limit) {a : CascadeAct Q}
    (hstep : cascadeStep w consumers limit d a = some d') :
    Stepped w consumers m limit d d' := by
  cases a with
  | deliver q i run =>
    simp only [cascadeStep, bind, Option.bind_eq_some_iff] at hstep
    obtain ⟨x, hx, heq⟩ := hstep
    obtain ⟨r, hcopy⟩ := hlive.1 q x (List.mem_of_getElem? hx)
    have hbelow := hcopy.below
    cases handle_endsWith (consumers q) limit hcopy.retry run with
    | settled hcopies hreject =>
      simp only [hcopies, hreject, Bool.false_eq_true, if_false, List.append_nil] at heq
      exact Option.some.inj heq ▸ .settled hx hcopy
    | rejected hcopies hreject hlimit =>
      simp only [hcopies, hreject, if_true, List.append_nil] at heq
      exact Option.some.inj heq ▸ .rejected hx hcopy (by omega)
    | republished hy hcopies hreject hlimit =>
      simp only [hcopies, hreject, Bool.false_eq_true, if_false, List.append_nil] at heq
      exact Option.some.inj heq ▸ .retried hx hcopy (hcopy.republished hlimit hy)
  | publish i =>
    simp only [cascadeStep, bind, Option.bind_eq_some_iff] at hstep
    obtain ⟨x, hx, heq⟩ := hstep
    obtain ⟨r, hcopy⟩ := hlive.2 x (List.mem_of_getElem? hx)
    exact Option.some.inj heq ▸ .published hx hcopy

theorem Cascade.mem_of_mem_taken {queues : Q → List (Incoming B V)} {q p : Q} {i : Nat}
    {y : Incoming B V} (h : y ∈ Function.update queues q ((queues q).eraseIdx i) p) :
    y ∈ queues p := by
  by_cases hp : p = q
  · subst hp
    rw [Function.update_self] at h
    exact List.mem_of_mem_eraseIdx h
  · rwa [Function.update_of_ne hp] at h

theorem Cascade.Stepped.live (hlive : d.Live w m limit) (h : Stepped w consumers m limit d d') :
    d'.Live w m limit := by
  obtain ⟨hqueues, hpending⟩ := hlive
  cases h with
  | settled => exact ⟨fun q y hy => hqueues q y (Cascade.mem_of_mem_taken hy), hpending⟩
  | rejected => exact ⟨fun q y hy => hqueues q y (Cascade.mem_of_mem_taken hy), hpending⟩
  | retried hx hcopy hnext =>
    refine ⟨fun q y hy => hqueues q y (Cascade.mem_of_mem_taken hy), fun y hy => ?_⟩
    rcases List.mem_append.mp hy with hold | hnew
    · exact hpending y hold
    · rw [List.mem_singleton.mp hnew]
      exact ⟨_, hnext⟩
  | published hx hcopy =>
    refine ⟨fun q y hy => ?_, fun y hy => hpending y (List.mem_of_mem_eraseIdx hy)⟩
    rcases List.mem_append.mp hy with hold | hnew
    · exact hqueues q y hold
    · split_ifs at hnew
      · rw [List.mem_singleton.mp hnew]
        exact ⟨_, hcopy⟩
      · cases hnew

variable [Fintype Q]

variable (consumers) in
omit [DecidableEq Q] in
/-- Publishing a copy adds its weight once for each queue that is bound to its key. -/
theorem Cascade.load_toBound (queues : Q → List (Incoming B V)) (x : Incoming B V)
    (weight : Incoming B V → Nat) :
    load weight (toBound consumers queues x) =
      load weight queues + boundTo consumers x.routingKey * weight x :=
  load_append queues _ x weight

/-- A step costs no more than the weight it takes away. -/
theorem Cascade.Stepped.pays (t : Tariff (boundTo consumers m.routingKey))
    (h : Stepped w consumers m limit d d') :
    d'.cost t + d'.weight w t limit ≤ d.cost t + d.weight w t limit := by
  cases h with
  | @settled q i x r hx hcopy =>
    have htake := load_take hx fun y => t.queued (y.left w limit)
    have hpays : t.attempt ≤ t.queued (x.left w limit) := by
      rw [hcopy.left_eq]
      exact t.pays_attempt (Nat.sub_pos_of_lt hcopy.below)
    simp only [Cascade.cost, Cascade.weight, Nat.mul_add]
    omega
  | @rejected q i x r hx hcopy hlimit =>
    have htake := load_take hx fun y => t.queued (y.left w limit)
    have hone : x.left w limit = 1 := by
      rw [hcopy.left_eq]
      omega
    have hpays := t.pays_giveUp
    rw [hone] at htake
    simp only [Cascade.cost, Cascade.weight, Nat.mul_add, List.length_append,
      List.length_singleton]
    omega
  | @retried q i x y r hx hcopy hnext =>
    have htake := load_take hx fun y => t.queued (y.left w limit)
    have hbelow := hnext.below
    have hsucc : x.left w limit = (limit - (r + 1)) + 1 := by
      rw [hcopy.left_eq]
      omega
    have hpays := t.pays_retry (limit - (r + 1)) (by omega)
    rw [hsucc] at htake
    simp only [Cascade.cost, Cascade.weight, Nat.mul_add, List.map_append, List.sum_append,
      List.map_singleton, List.sum_singleton, hnext.left_eq]
    omega
  | @published i x r hx hcopy =>
    have htake := sum_eraseIdx hx fun y => t.asked (y.left w limit)
    have hpays := t.pays_ask (x.left w limit)
    have hload := Cascade.load_toBound consumers d.queues x fun y => t.queued (y.left w limit)
    rw [hcopy.routingKey] at hload
    simp only [Cascade.cost, Cascade.weight, Nat.mul_add, hload]
    omega

omit [DecidableEq Q] [Fintype Q] in
theorem Cascade.live_start (hretry : m.retry w = some 0) (hlimit : 0 < limit) :
    (Cascade.start consumers m).Live w m limit := by
  refine ⟨fun q y hy => ?_, fun y hy => by cases hy⟩
  have heq : y = m := by
    simp only [Cascade.start, toBound, List.nil_append] at hy
    split_ifs at hy
    · exact List.mem_singleton.mp hy
    · cases hy
  exact ⟨0, heq ▸ hretry, hlimit, congrArg Incoming.routingKey heq⟩

omit [DecidableEq Q] in
theorem Cascade.weight_start (hretry : m.retry w = some 0) {k : Nat} (t : Tariff k) :
    (Cascade.start consumers m).weight w t limit =
      boundTo consumers m.routingKey * t.queued limit := by
  have hleft : m.left w limit = limit := by simp [Incoming.left, hretry]
  have hempty : load (fun y : Incoming B V => t.queued (y.left w limit)) (fun _ : Q => []) = 0 := by
    simp [load]
  unfold Cascade.weight Cascade.start
  rw [Cascade.load_toBound, hempty, hleft]
  simp

/-- The cost of a run is bounded by the weight of the first message. -/
theorem Cascade.cost_le (hretry : m.retry w = some 0) (hlimit : 0 < limit)
    {acts : List (CascadeAct Q)}
    (hrun : exec (cascadeStep w consumers limit) (.start consumers m) acts = some d)
    (t : Tariff (boundTo consumers m.routingKey)) :
    d.cost t ≤ boundTo consumers m.routingKey * t.queued limit := by
  have hinv : d.Live w m limit ∧ d.cost t + d.weight w t limit ≤
      boundTo consumers m.routingKey * t.queued limit := by
    refine exec_invariant (fun d : Cascade Q B V => d.Live w m limit ∧
      d.cost t + d.weight w t limit ≤ boundTo consumers m.routingKey * t.queued limit) ?_
      ⟨Cascade.live_start hretry hlimit, ?_⟩ hrun
    · intro u a v ⟨hlive, hu⟩ hs
      have hstep := hlive.stepped hs
      exact ⟨hstep.live hlive, (hstep.pays t).trans hu⟩
    · rw [Cascade.weight_start hretry]
      simp [Cascade.cost, Cascade.start]
  omega

omit [Fintype Q] in
/-- Every step is a delivery or a publication. -/
theorem Cascade.length_eq {acts : List (CascadeAct Q)} (limit : Int) {d₀ : Cascade Q B V}
    (hrun : exec (cascadeStep w consumers limit) d₀ acts = some d) :
    d.deliveries + d.publications = d₀.deliveries + d₀.publications + acts.length := by
  induction acts generalizing d₀ with
  | nil =>
    rw [Option.some.inj hrun]
    rfl
  | cons a acts ih =>
    obtain ⟨u, hu, hrest⟩ := exec_cons_eq_some.mp hrun
    have hone : u.deliveries + u.publications = d₀.deliveries + d₀.publications + 1 := by
      cases a with
      | deliver q i run =>
        simp only [cascadeStep, bind, Option.bind_eq_some_iff] at hu
        obtain ⟨x, -, heq⟩ := hu
        cases heq
        simp only []
        omega
      | publish i =>
        simp only [cascadeStep, bind, Option.bind_eq_some_iff] at hu
        obtain ⟨x, -, heq⟩ := hu
        cases heq
        rfl
    have htail := ih hrest
    rw [List.length_cons]
    omega

end

/-- One message without retries causes at most `k + k ^ 2 + ... + k ^ N` deliveries and
`k ^ N` dead letters on `k` bound queues, and every run ends. -/
theorem cascade_bounded [DecidableEq Q] [Fintype Q] (m : Incoming B V) (N : Nat) (hN : 0 < N)
    (hfresh : m.headers.get? "x-retry" = none) (acts : List (CascadeAct Q)) (d : Cascade Q B V)
    (hrun : exec (cascadeStep w consumers N) (.start consumers m) acts = some d) :
    d.deliveries ≤ ∑ i ∈ Finset.Icc 1 N, boundTo consumers m.routingKey ^ i ∧
      d.dead.length ≤ boundTo consumers m.routingKey ^ N ∧
      acts.length ≤ 2 * ∑ i ∈ Finset.Icc 1 N, boundTo consumers m.routingKey ^ i := by
  have hretry : m.retry w = some 0 := by simp [Incoming.retry, hfresh]
  have hcost := Cascade.cost_le hretry hN hrun
  generalize boundTo consumers m.routingKey = k at hcost
  have hattempts := hcost (Branching.attempts k)
  have hgivenUp := hcost (givenUp k)
  have hsteps := hcost (steps k)
  have hlength := Cascade.length_eq N hrun
  refine ⟨?_, ?_, ?_⟩
  · simpa [Cascade.cost, Branching.attempts, mul_sum_pow, total] using hattempts
  · obtain ⟨n, rfl⟩ : ∃ n, N = n + 1 := ⟨N - 1, by omega⟩
    simpa [Cascade.cost, givenUp, pow_succ'] using hgivenUp
  · have htotal : d.deliveries + d.publications ≤ 2 * total k N := by
      simpa [Cascade.cost, steps, ← mul_sum_pow, Nat.mul_left_comm] using hsteps
    simp only [Cascade.start, Nat.zero_add] at hlength
    rw [← hlength]
    exact htotal

/-- The order service and shipping are bound to `StockReserved`. -/
def reservedQueues (shipping : Bool) : Consumer :=
  if shipping then shippingConsumer else orderEvents

def reservedMessage : Incoming Body HeaderValue :=
  ⟨.event reservedOrder, Dict.empty, some "application/json", "StockReserved"⟩

/-- The order service fails twice; shipping handles the event and the copy. -/
def orderFailsTwice : List (CascadeAct Bool) :=
  [.deliver false 0 .raises, .deliver true 0 .returns, .publish 0, .deliver false 0 .raises,
    .deliver true 0 .returns]

theorem cascade_bounded_orderFailsTwice :
    ∃ d, exec (cascadeStep eventWire reservedQueues (2 : Nat))
        (.start reservedQueues reservedMessage) orderFailsTwice = some d ∧
      d.deliveries ≤ ∑ i ∈ Finset.Icc 1 2, boundTo reservedQueues "StockReserved" ^ i ∧
      d.dead.length ≤ boundTo reservedQueues "StockReserved" ^ 2 ∧
      orderFailsTwice.length ≤
        2 * ∑ i ∈ Finset.Icc 1 2, boundTo reservedQueues "StockReserved" ^ i :=
  ⟨_, rfl, cascade_bounded eventWire reservedQueues reservedMessage 2 (by decide) rfl
    orderFailsTwice _ rfl⟩

end OrderMesh
