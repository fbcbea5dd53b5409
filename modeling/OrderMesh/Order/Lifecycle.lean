import OrderMesh.Order.Service

namespace OrderMesh.Orders

inductive Act
  | create (customerId : Int) (payload : OrderCreate)
  | cancel (caller : Caller) (id : Int)
  | stockReserved (id : Int)
  | stockUnavailable (id : Int)
  | shipmentCreated (id : Int)

def apply (orders : SerialTable Order) : Act → SerialTable Order
  | .create customerId payload =>
      match newOrder customerId payload with
      | none => orders
      | some order => orders.insert order
  | .cancel caller id =>
      match loadCancellable orders caller id with
      | .error _ => orders
      | .ok _ => writeStatus orders id .cancelled
  | .stockReserved id => setStatus orders id .confirmed
  | .stockUnavailable id => setStatus orders id .cancelled
  | .shipmentCreated id => setStatus orders id .shipped

def run (orders : SerialTable Order) (acts : List Act) : SerialTable Order :=
  acts.foldl apply orders

theorem run_snoc (orders : SerialTable Order) (acts : List Act) (a : Act) :
    run orders (acts ++ [a]) = apply (run orders acts) a := by
  simp [run, List.foldl_append]

inductive Edge : OrderStatus → OrderStatus → Prop
  | confirm : Edge .pending .confirmed
  | ship : Edge .confirmed .shipped
  | shipPending : Edge .pending .shipped
  | cancelPending : Edge .pending .cancelled
  | cancelConfirmed : Edge .confirmed .cancelled

/-- Every status change of the order along the run follows an edge; so a
cancelled order stays cancelled and a shipped one is never confirmed again. -/
structure Lifecycle (orders : SerialTable Order) (acts : List Act) (id : Int) : Prop where
  edges : ∀ pre a post s t, acts = pre ++ a :: post → statusOf (run orders pre) id = some s →
    statusOf (run orders (pre ++ [a])) id = some t → s = t ∨ Edge s t
  cancelled : ∀ pre mid post, acts = pre ++ (mid ++ post) →
    statusOf (run orders pre) id = some .cancelled →
    statusOf (run orders (pre ++ mid)) id = some .cancelled
  shipped : ∀ pre mid post, acts = pre ++ (mid ++ post) →
    statusOf (run orders pre) id = some .shipped →
    statusOf (run orders (pre ++ mid)) id ≠ some .confirmed

/-- The event arrives while the order may still take its status. -/
def InOrder (orders : SerialTable Order) : Act → Prop
  | .stockReserved id => ∀ s, statusOf orders id = some s → s = .pending ∨ s = .confirmed
  | .stockUnavailable id =>
      ∀ s, statusOf orders id = some s → s = .pending ∨ s = .confirmed ∨ s = .cancelled
  | .shipmentCreated id =>
      ∀ s, statusOf orders id = some s → s = .pending ∨ s = .confirmed ∨ s = .shipped
  | _ => True

theorem apply_create_cases (orders : SerialTable Order) (customerId : Int) (payload : OrderCreate) :
    apply orders (.create customerId payload) = orders ∨
      ∃ order, newOrder customerId payload = some order ∧
        apply orders (.create customerId payload) = orders.insert order := by
  cases h : newOrder customerId payload with
  | none => exact .inl (by simp only [apply, h])
  | some order => exact .inr ⟨order, rfl, by simp only [apply, h]⟩

theorem apply_cancel_cases (orders : SerialTable Order) (caller : Caller) (id : Int) :
    apply orders (.cancel caller id) = orders ∨
      ∃ order, loadCancellable orders caller id = .ok order ∧
        apply orders (.cancel caller id) = writeStatus orders id .cancelled := by
  cases h : loadCancellable orders caller id with
  | error e => exact .inl (by simp only [apply, h])
  | ok order => exact .inr ⟨order, rfl, by simp only [apply, h]⟩

theorem statusOf_apply_isSome {orders : SerialTable Order} {id : Int} {s : OrderStatus}
    (h : statusOf orders id = some s) (a : Act) : ∃ t, statusOf (apply orders a) id = some t := by
  have hset : ∀ j status, ∃ t, statusOf (setStatus orders j status) id = some t := by
    intro j status
    rw [statusOf_setStatus, h]
    split_ifs
    · exact ⟨status, rfl⟩
    · exact ⟨s, rfl⟩
  cases a with
  | create customerId payload =>
    rcases apply_create_cases orders customerId payload with heq | ⟨order, -, heq⟩
    · exact ⟨s, by rw [heq, h]⟩
    · rw [heq, statusOf_insert, h]
      split_ifs
      · exact ⟨order.status, rfl⟩
      · exact ⟨s, rfl⟩
  | cancel caller j =>
    rcases apply_cancel_cases orders caller j with heq | ⟨order, -, heq⟩
    · exact ⟨s, by rw [heq, h]⟩
    · rw [heq, statusOf_writeStatus, h]
      split_ifs
      · exact ⟨.cancelled, rfl⟩
      · exact ⟨s, rfl⟩
  | stockReserved j => exact hset j .confirmed
  | stockUnavailable j => exact hset j .cancelled
  | shipmentCreated j => exact hset j .shipped

/-- An event writes its status on the order it names, and on no other. -/
theorem statusOf_setStatus_eq_some {orders : SerialTable Order} {id j : Int}
    {s t status : OrderStatus}
    (hs : statusOf orders id = some s) (ht : statusOf (setStatus orders j status) id = some t) :
    (id = j ∧ status = t) ∨ s = t := by
  rw [statusOf_setStatus, hs] at ht
  split_ifs at ht with hj
  · exact .inl ⟨hj, Option.some.inj ht⟩
  · exact .inr (Option.some.inj ht)

/-- A step in order moves no order off the lifecycle. -/
theorem apply_edge {orders : SerialTable Order} {a : Act} (ha : InOrder orders a) {id : Int}
    {s t : OrderStatus} (hs : statusOf orders id = some s)
    (ht : statusOf (apply orders a) id = some t) : s = t ∨ Edge s t := by
  cases a with
  | create customerId payload =>
    left
    rcases apply_create_cases orders customerId payload with heq | ⟨order, -, heq⟩
    · rw [heq] at ht
      exact Option.some.inj (hs.symm.trans ht)
    · have hold : id ≠ orders.next := by
        intro hid
        rw [hid, statusOf, SerialTable.get?_next] at hs
        cases hs
      rw [heq, statusOf_insert, if_neg hold] at ht
      exact Option.some.inj (hs.symm.trans ht)
  | cancel caller j =>
    rcases apply_cancel_cases orders caller j with heq | ⟨order, hload, heq⟩
    · rw [heq] at ht
      exact .inl (Option.some.inj (hs.symm.trans ht))
    · rw [heq, statusOf_writeStatus, hs] at ht
      split_ifs at ht with hj
      · subst hj
        obtain ⟨hget, hstatus⟩ := loadCancellable_eq_ok hload
        have horder : order.status = s := by
          rw [statusOf, hget] at hs
          exact Option.some.inj hs
        subst horder
        cases Option.some.inj ht
        right
        cases hcase : order.status with
        | pending => exact .cancelPending
        | confirmed => exact .cancelConfirmed
        | _ => rw [hcase] at hstatus; cases hstatus
      · exact .inl (Option.some.inj ht)
  | stockReserved j =>
    rcases statusOf_setStatus_eq_some hs ht with ⟨rfl, rfl⟩ | heq
    · rcases ha s hs with rfl | rfl
      · exact .inr .confirm
      · exact .inl rfl
    · exact .inl heq
  | stockUnavailable j =>
    rcases statusOf_setStatus_eq_some hs ht with ⟨rfl, rfl⟩ | heq
    · rcases ha s hs with rfl | rfl | rfl
      · exact .inr .cancelPending
      · exact .inr .cancelConfirmed
      · exact .inl rfl
    · exact .inl heq
  | shipmentCreated j =>
    rcases statusOf_setStatus_eq_some hs ht with ⟨rfl, rfl⟩ | heq
    · rcases ha s hs with rfl | rfl | rfl
      · exact .inr .shipPending
      · exact .inr .ship
      · exact .inl rfl
    · exact .inl heq

/-- A step off the order moves the order it names off the lifecycle. -/
theorem inOrder_of_edges {orders : SerialTable Order} {a : Act}
    (h : ∀ id s t, statusOf orders id = some s → statusOf (apply orders a) id = some t →
      s = t ∨ Edge s t) : InOrder orders a := by
  have hset : ∀ id status s, apply orders a = setStatus orders id status →
      statusOf orders id = some s → s = status ∨ Edge s status := by
    intro id status s ha hs
    apply h id s status hs
    rw [ha, statusOf_setStatus, if_pos rfl, hs]
    rfl
  cases a with
  | create | cancel => trivial
  | stockReserved id =>
    intro s hs
    rcases hset id _ s rfl hs with rfl | he
    · exact .inr rfl
    · cases he
      exact .inl rfl
  | stockUnavailable id =>
    intro s hs
    rcases hset id _ s rfl hs with rfl | he
    · exact .inr (.inr rfl)
    · cases he with
      | cancelPending => exact .inl rfl
      | cancelConfirmed => exact .inr (.inl rfl)
  | shipmentCreated id =>
    intro s hs
    rcases hset id _ s rfl hs with rfl | he
    · exact .inr (.inr rfl)
    · cases he with
      | shipPending => exact .inl rfl
      | ship => exact .inr (.inl rfl)

/-- A status no edge leaves is kept for ever. -/
theorem run_terminal {orders : SerialTable Order} {acts : List Act} {id : Int} {s : OrderStatus}
    (hs : ∀ t, ¬ Edge s t)
    (hedges : ∀ pre a post u t, acts = pre ++ a :: post → statusOf (run orders pre) id = some u →
      statusOf (run orders (pre ++ [a])) id = some t → u = t ∨ Edge u t)
    {pre mid post : List Act} (hacts : acts = pre ++ (mid ++ post))
    (hpre : statusOf (run orders pre) id = some s) :
    statusOf (run orders (pre ++ mid)) id = some s := by
  induction mid generalizing pre with
  | nil => rwa [List.append_nil]
  | cons a mid ih =>
    have hnext : statusOf (run orders (pre ++ [a])) id = some s := by
      obtain ⟨t, ht⟩ := statusOf_apply_isSome hpre a
      rw [← run_snoc] at ht
      rcases hedges pre a (mid ++ post) s t hacts hpre ht with rfl | he
      · exact ht
      · exact absurd he (hs t)
    have hacts' : acts = (pre ++ [a]) ++ (mid ++ post) := by simpa using hacts
    have hrest := ih hacts' hnext
    simpa using hrest

/-- The lifecycle is kept along a run exactly when every event arrives in order. -/
theorem lifecycle_iff (orders : SerialTable Order) (acts : List Act) :
    (∀ id, Lifecycle orders acts id) ↔
      ∀ pre a post, acts = pre ++ a :: post → InOrder (run orders pre) a := by
  constructor
  · intro h pre a post hacts
    apply inOrder_of_edges
    intro id s t hs ht
    exact (h id).edges pre a post s t hacts hs (run_snoc orders pre a ▸ ht)
  · intro h id
    have hedges : ∀ pre a post s t, acts = pre ++ a :: post →
        statusOf (run orders pre) id = some s →
        statusOf (run orders (pre ++ [a])) id = some t → s = t ∨ Edge s t := by
      intro pre a post s t hacts hs ht
      rw [run_snoc] at ht
      exact apply_edge (h pre a post hacts) hs ht
    have hcancelled : ∀ t, ¬ Edge .cancelled t := fun t he => by cases he
    have hshipped : ∀ t, ¬ Edge .shipped t := fun t he => by cases he
    refine ⟨hedges, fun pre mid post hacts hs => ?_, fun pre mid post hacts hs hc => ?_⟩
    · exact run_terminal hcancelled hedges hacts hs
    · have hkept := run_terminal hshipped hedges hacts hs
      cases hkept.symm.trans hc

/-- Cancelled while `StockReserved` was on its way: the order comes back as confirmed. -/
theorem lifecycle_broken_by_late_stockReserved :
    ¬ Lifecycle (SerialTable.empty.insert ⟨7, 999, .pending, [⟨1, 1, 999⟩]⟩)
      [.cancel ⟨false, some 7⟩ 1, .stockReserved 1] 1 := by
  intro h
  have hkept := h.cancelled [.cancel ⟨false, some 7⟩ 1] [.stockReserved 1] [] rfl (by decide)
  revert hkept
  decide

end OrderMesh.Orders
