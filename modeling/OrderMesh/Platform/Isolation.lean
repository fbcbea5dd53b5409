import OrderMesh.Platform.Requests

namespace OrderMesh.Platform

open CacheAside Transition Service

/-- What a customer asks of the order service. -/
inductive CustomerRequest
  | getOrder (id : Int)
  | listOrders
  | cancelOrder (id : Int)

def CustomerRequest.operation (customerId : Int) : CustomerRequest → Operation
  | .getOrder id => .getOrder ⟨false, some customerId⟩ id
  | .listOrders => .listOrders ⟨false, some customerId⟩
  | .cancelOrder id => .cancelOrder ⟨false, some customerId⟩ id

/-- The order the request is about. -/
def CustomerRequest.orderId : CustomerRequest → Option Int
  | .getOrder id | .cancelOrder id => some id
  | .listOrders => none

def Reply.orders : Reply → List Row
  | .row r => [r]
  | .rows rs => rs
  | .handled => []

/-- What a request finds among lookups and writers; `outcomes` are those of its own calls. -/
def site (d : State Databases Key String Row) (outcomes : List Outcome) : Site (Redis Row) :=
  ⟨d.store, [], ⟨d.entries, [], outcomes⟩⟩

def Owns (customerId : Int) (s : Site (Redis Row)) (id : Int) : Prop :=
  ∃ order, s.databases.orders.get? id = some order ∧ order.customerId = customerId

/-- An order of another customer. -/
def Others (customerId : Int) (s : Site (Redis Row)) (id : Int) : Prop :=
  ∃ order, s.databases.orders.get? id = some order ∧ order.customerId ≠ customerId

structure AgreeFor (customerId : Int) (s t : Site (Redis Row)) : Prop where
  orders : ∀ id order, order.customerId = customerId →
    (s.databases.orders.get? id = some order ↔ t.databases.orders.get? id = some order)
  entries : ∀ id, Owns customerId s id →
    s.cache.entries.get? (cacheKey (.order id)) = t.cache.entries.get? (cacheKey (.order id))
  outcomes : s.cache.outcomes = t.cache.outcomes

/-- The two sites answer the request alike, and it leaves other customers alone. -/
structure Isolated (customerId : Int) (request : CustomerRequest) (s t : Site (Redis Row)) :
    Prop where
  same : reply redisCache s (request.operation customerId) =
    reply redisCache t (request.operation customerId)
  own : ∀ body, reply redisCache s (request.operation customerId) = .ok body →
    ∀ row ∈ body.orders, row.customerId = .ok customerId
  hidden : ∀ id ∈ request.orderId, ¬ Owns customerId s id →
    reply redisCache s (request.operation customerId) =
      .error (.httpException 404 "Order not found")
  orders : ∀ id, Others customerId s id →
    (outcome (serve redisCache (request.operation customerId)) s).2.databases.orders.get? id =
      s.databases.orders.get? id
  entries : ∀ id, Others customerId s id → s.cache.Lasting (cacheKey (.order id)) →
    (outcome (serve redisCache (request.operation customerId)) s).2.cache.entries.get?
        (cacheKey (.order id)) =
      s.cache.entries.get? (cacheKey (.order id))

/-- Every cached order is an order of the same customer, maybe an old one. -/
def Honest (s : Site (Redis Row)) : Prop :=
  ∀ id row, s.cache.entries.get? (cacheKey (.order id)) = some row →
    ∃ cached order, row = .order id cached ∧ s.databases.orders.get? id = some order ∧
      order.customerId = cached.customerId

/-- No order disappears or changes hands. -/
def Retains (t u : Databases) : Prop :=
  ∀ id order, t.orders.get? id = some order →
    ∃ order', u.orders.get? id = some order' ∧ order'.customerId = order.customerId

theorem retains_trans {t u v : Databases} (htu : Retains t u) (huv : Retains u v) :
    Retains t v := by
  intro id order hget
  obtain ⟨order', hget', howner⟩ := htu id order hget
  obtain ⟨order'', hget'', howner'⟩ := huv id order' hget'
  exact ⟨order'', hget'', howner'.trans howner⟩

theorem retains_commit (t : Databases) (c : Commit) : Retains t (t.commit c) := by
  intro id order hget
  cases c with
  | createOrder customerId payload =>
    refine ⟨order, ?_, rfl⟩
    cases hnew : Orders.newOrder customerId payload with
    | none => simpa [Databases.commit, hnew] using hget
    | some new => simpa [Databases.commit, hnew] using SerialTable.get?_insert_of_some hget new
  | setStatus j status =>
    simp only [Databases.commit, Orders.writeStatus]
    rw [SerialTable.get?_modify]
    split_ifs
    · rw [hget]
      exact ⟨_, rfl, rfl⟩
    · exact ⟨order, hget, rfl⟩
  | _ => exact ⟨order, hget, rfl⟩

theorem honest_site {databases : Databases} {as : List (Act Key String Commit)}
    {d : State Databases Key String Row}
    (h : exec (step lookups) (State.start databases) as = some d)
    (outcomes : List Outcome) : Honest (site d outcomes) := by
  intro id row hget
  obtain ⟨n, s, -, hat, hrow⟩ := exec_genuine h (k := .order id) hget
  obtain ⟨cached, hcached, rfl⟩ := Option.map_eq_some_iff.mp hrow
  have hretains : Retains s d.store :=
    exec_history (R := Retains) (fun _ _ order hget => ⟨order, hget, rfl⟩)
      (fun _ _ _ => retains_trans) retains_commit h s (List.mem_of_getElem? hat)
  obtain ⟨order, horder, howner⟩ := hretains id cached hcached
  exact ⟨cached, order, rfl, horder, howner⟩

theorem Others.ne {customerId : Int} {s : Site (Redis Row)} {id j : Int}
    (hother : Others customerId s j) (hown : Owns customerId s id) :
    j ≠ id ∧ cacheKey (.order j) ≠ cacheKey (.order id) := by
  obtain ⟨order, hget, hne⟩ := hother
  obtain ⟨order', hget', howner⟩ := hown
  have hids : j ≠ id := by
    rintro rfl
    cases hget.symm.trans hget'
    exact hne howner
  exact ⟨hids, fun heq => hids (Key.order.inj (cacheKey_injective _ _ heq))⟩

/-- For a request that replies with one row. -/
theorem isolated_of_row {customerId : Int} {request : CustomerRequest} {s t : Site (Redis Row)}
    {x : Service (Redis Row) Row}
    (hserve : serve redisCache (request.operation customerId) = Reply.row <$> x)
    (hsame : (outcome x s).1 = (outcome x t).1)
    (hown : ∀ row, (outcome x s).1 = .ok row → row.customerId = .ok customerId)
    (hhidden : ∀ id ∈ request.orderId, ¬ Owns customerId s id →
      (outcome x s).1 = .error (.httpException 404 "Order not found"))
    (hothers : ∀ id, Others customerId s id →
      (outcome x s).2.databases.orders.get? id = s.databases.orders.get? id ∧
        (s.cache.Lasting (cacheKey (.order id)) →
          (outcome x s).2.cache.entries.get? (cacheKey (.order id)) =
            s.cache.entries.get? (cacheKey (.order id)))) :
    Isolated customerId request s t := by
  refine ⟨?_, ?_, ?_, ?_, ?_⟩ <;> simp only [reply, hserve, outcome_map]
  · rw [hsame]
  · intro body hbody row hrow
    cases hreply : (outcome x s).1 with
    | error e => simp [hreply, Except.map] at hbody
    | ok r =>
      simp only [hreply, Except.map, Except.ok.injEq] at hbody
      subst hbody
      rw [List.mem_singleton.mp hrow]
      exact hown r hreply
  · intro id hid hnot
    rw [hhidden id hid hnot]
    rfl
  · exact fun id hother => (hothers id hother).1
  · exact fun id hother => (hothers id hother).2

section GetOrder

variable {customerId id : Int} {s t : Site (Redis Row)}

theorem checkOwner_order (customerId id : Int) (order : Orders.Order) :
    checkOwner ⟨false, some customerId⟩ (.order id order) =
      if order.customerId = customerId then .ok () else .error (refusal .notFound) := by
  rw [checkOwner_eq]
  rfl

/-- What a lookup of a customer comes to. -/
inductive LookedUp (customerId id : Int) (s : Site (Redis Row)) :
    Except Raised Row × Site (Redis Row) → Prop
  | hidden (hnot : ¬ Owns customerId s id) : LookedUp customerId id s
      (.error (.httpException 404 "Order not found"), { s with cache := s.cache.next })
  | cached {order} (hown : Owns customerId s id) (howner : order.customerId = customerId)
      (hfound : s.cache.found (cacheKey (.order id)) = some (.order id order)) :
      LookedUp customerId id s (.ok (.order id order), { s with cache := s.cache.next })
  | loaded {order} (hget : s.databases.orders.get? id = some order)
      (howner : order.customerId = customerId)
      (hfound : s.cache.found (cacheKey (.order id)) = none) :
      LookedUp customerId id s (.ok (.order id order),
        { s with cache := s.cache.next.stored (cacheKey (.order id)) (.order id order) })

theorem lookedUp_getOrder (hhonest : Honest s) (customerId id : Int) :
    LookedUp customerId id s (outcome (getOrder redisCache ⟨false, some customerId⟩ id) s) := by
  unfold getOrder
  cases hfound : s.cache.found (cacheKey (.order id)) with
  | some row =>
    obtain ⟨cached, order, rfl, hget, howner⟩ :=
      hhonest id row (Redis.get?_forget (Redis.get?_of_found hfound)).1
    rw [lookUp_found _ _ _ hfound, checkOwner_order]
    by_cases hmine : cached.customerId = customerId
    · rw [if_pos hmine]
      exact .cached ⟨order, hget, howner.trans hmine⟩ hmine hfound
    · rw [if_neg hmine]
      refine .hidden ?_
      rintro ⟨order', hget', howner'⟩
      cases hget.symm.trans hget'
      exact hmine (howner.symm.trans howner')
  | none =>
    rw [lookUp_missed _ _ _ hfound]
    cases hget : s.databases.orders.get? id with
    | none =>
      have hnone : fromDatabase (.order id) (checkOwner ⟨false, some customerId⟩) "Order not found"
          s.databases = .error (.httpException 404 "Order not found") := by
        simp [fromDatabase, Databases.row, hget]
      rw [hnone]
      refine .hidden ?_
      rintro ⟨order, hget', -⟩
      cases hget.symm.trans hget'
    | some order =>
      have hrow : fromDatabase (.order id) (checkOwner ⟨false, some customerId⟩) "Order not found"
          s.databases = (checkOwner ⟨false, some customerId⟩ (.order id order)).map
            fun _ => .order id order := by
        simp [fromDatabase, Databases.row, hget]
      rw [hrow, checkOwner_order]
      by_cases hmine : order.customerId = customerId
      · rw [if_pos hmine]
        exact .loaded hget hmine hfound
      · rw [if_neg hmine]
        refine .hidden ?_
        rintro ⟨order', hget', howner'⟩
        cases hget.symm.trans hget'
        exact hmine howner'

theorem AgreeFor.owns (h : AgreeFor customerId s t) : Owns customerId s id ↔ Owns customerId t id :=
  exists_congr fun _ => and_congr_left fun howner => h.orders id _ howner

theorem AgreeFor.found (h : AgreeFor customerId s t) (hown : Owns customerId s id) :
    s.cache.found (cacheKey (.order id)) = t.cache.found (cacheKey (.order id)) :=
  Redis.found_congr h.outcomes (h.entries id hown)

/-- What the customer gets does not tell the sites apart. -/
theorem LookedUp.same {u v : Except Raised Row × Site (Redis Row)} (h : AgreeFor customerId s t)
    (hu : LookedUp customerId id s u) (hv : LookedUp customerId id t v) : u.1 = v.1 := by
  cases hu with
  | hidden hnot =>
    cases hv with
    | hidden => rfl
    | cached hown => exact absurd (h.owns.mpr hown) hnot
    | loaded hget howner => exact absurd (h.owns.mpr ⟨_, hget, howner⟩) hnot
  | cached hown howner hfound =>
    rw [h.found hown] at hfound
    cases hv with
    | hidden hnot => exact absurd (h.owns.mp hown) hnot
    | cached _ _ hfound' =>
      cases hfound.symm.trans hfound'
      rfl
    | loaded _ _ hfound' => cases hfound.symm.trans hfound'
  | loaded hget howner hfound =>
    have hown : Owns customerId s id := ⟨_, hget, howner⟩
    rw [h.found hown] at hfound
    cases hv with
    | hidden hnot => exact absurd (h.owns.mp hown) hnot
    | cached _ _ hfound' => cases hfound.symm.trans hfound'
    | loaded hget' howner' hfound' =>
      cases hget.symm.trans ((h.orders id _ howner').mpr hget')
      rfl

theorem LookedUp.own {u : Except Raised Row × Site (Redis Row)} (hu : LookedUp customerId id s u)
    {row : Row} (h : u.1 = .ok row) : row.customerId = .ok customerId := by
  cases hu with
  | hidden => cases h
  | cached _ howner =>
    cases h
    exact congrArg Except.ok howner
  | loaded _ howner =>
    cases h
    exact congrArg Except.ok howner

theorem LookedUp.of_not_owns {u : Except Raised Row × Site (Redis Row)}
    (hu : LookedUp customerId id s u) (hnot : ¬ Owns customerId s id) :
    u.1 = .error (.httpException 404 "Order not found") := by
  cases hu with
  | hidden => rfl
  | cached hown => exact absurd hown hnot
  | loaded hget howner => exact absurd ⟨_, hget, howner⟩ hnot

theorem LookedUp.databases {u : Except Raised Row × Site (Redis Row)}
    (hu : LookedUp customerId id s u) : u.2.databases = s.databases := by
  cases hu <;> rfl

/-- Entries of other customers stay. -/
theorem LookedUp.entries {u : Except Raised Row × Site (Redis Row)}
    (hu : LookedUp customerId id s u) {j : Int} (hother : Others customerId s j)
    (hlasting : s.cache.Lasting (cacheKey (.order j))) :
    u.2.cache.entries.get? (cacheKey (.order j)) = s.cache.entries.get? (cacheKey (.order j)) := by
  cases hu with
  | hidden => exact hlasting.get?_next
  | cached => exact hlasting.get?_next
  | loaded hget howner =>
    have hne := hother.ne ⟨_, hget, howner⟩
    exact (hlasting.next.get?_stored hne.2 _).trans hlasting.get?_next

theorem isolated_getOrder (hs : Honest s) (ht : Honest t) (h : AgreeFor customerId s t) (id : Int) :
    Isolated customerId (.getOrder id) s t := by
  have hu := lookedUp_getOrder hs customerId id
  refine isolated_of_row rfl (hu.same h (lookedUp_getOrder ht customerId id))
    (fun row => hu.own) (fun j hj hnot => ?_) (fun j hother => ⟨?_, hu.entries hother⟩)
  · cases hj
    exact hu.of_not_owns hnot
  · rw [hu.databases]

end GetOrder

section ListOrders

variable {customerId : Int} {s t : Site (Redis Row)}

/-- The rows of a customer, newest first. -/
def ownRows (customerId : Int) (s : Site (Redis Row)) : List (Int × Orders.Order) :=
  (s.databases.orders.rows.filter fun r => r.2.customerId = customerId).insertionSort
    fun a b => b.1 ≤ a.1

theorem outcome_listOrders (customerId : Int) (s : Site (Redis Row)) :
    outcome (serve redisCache (.listOrders ⟨false, some customerId⟩)) s =
      (.ok (.rows ((ownRows customerId s).map fun r => .order r.1 r.2)), s) := rfl

theorem mem_ownRows {r : Int × Orders.Order} :
    r ∈ ownRows customerId s ↔ r ∈ s.databases.orders.rows ∧ r.2.customerId = customerId := by
  simp [ownRows]

/-- Newest first is one order of the rows only. -/
theorem AgreeFor.ownRows (h : AgreeFor customerId s t) :
    ownRows customerId s = ownRows customerId t := by
  have hsorted : ∀ u : Site (Redis Row),
      (OrderMesh.Platform.ownRows customerId u).Pairwise fun a b => b.1 ≤ a.1 := by
    intro u
    have htotal : Std.Total fun a b : Int × Orders.Order => b.1 ≤ a.1 :=
      ⟨fun a b => Int.le_total b.1 a.1⟩
    have htrans : IsTrans (Int × Orders.Order) fun a b => b.1 ≤ a.1 :=
      ⟨fun _ _ _ hab hbc => Int.le_trans hbc hab⟩
    exact List.pairwise_insertionSort _ _
  have hnodup : ∀ u : Site (Redis Row), (OrderMesh.Platform.ownRows customerId u).Nodup := by
    intro u
    refine (List.perm_insertionSort _ _).nodup_iff.mpr (List.Nodup.filter _ ?_)
    exact List.Nodup.of_map Prod.fst u.databases.orders.nodup
  have hmem : ∀ r, r ∈ OrderMesh.Platform.ownRows customerId s ↔
      r ∈ OrderMesh.Platform.ownRows customerId t := by
    intro r
    rw [mem_ownRows, mem_ownRows]
    refine and_congr_left fun howner => ?_
    rw [← SerialTable.get?_eq_some_iff, ← SerialTable.get?_eq_some_iff]
    exact h.orders r.1 r.2 howner
  refine List.Perm.eq_of_pairwise (fun a b ha hb hab hba => ?_) (hsorted s) (hsorted t)
    ((List.perm_ext_iff_of_nodup (hnodup s) (hnodup t)).mpr hmem)
  have hid : a.1 = b.1 := Int.le_antisymm hba hab
  exact t.databases.orders.mem_rows_unique (mem_ownRows.mp ((hmem a).mp ha)).1
    (mem_ownRows.mp hb).1 hid

theorem isolated_listOrders (h : AgreeFor customerId s t) :
    Isolated customerId .listOrders s t := by
  refine ⟨?_, ?_, ?_, fun j _ => rfl, fun j _ _ => rfl⟩ <;>
    simp only [reply, CustomerRequest.operation, outcome_listOrders]
  · rw [h.ownRows]
  · intro body hbody row hrow
    cases hbody
    obtain ⟨r, hr, rfl⟩ := List.mem_map.mp hrow
    exact congrArg Except.ok (mem_ownRows.mp hr).2
  · exact fun j hj => nomatch hj

end ListOrders

section CancelOrder

variable {customerId id : Int} {s t : Site (Redis Row)}

/-- What the cancel of a customer comes to. -/
inductive CancelledBy (customerId id : Int) (s : Site (Redis Row)) :
    Except Raised Row × Site (Redis Row) → Prop
  | hidden (hnot : ¬ Owns customerId s id) : CancelledBy customerId id s
      (.error (.httpException 404 "Order not found"), s)
  | conflict {order} (hget : s.databases.orders.get? id = some order)
      (howner : order.customerId = customerId) (hlate : Orders.notCancellable order.status = true) :
      CancelledBy customerId id s (.error (refusal (.conflict order.status)), s)
  | cancelled {order} (hget : s.databases.orders.get? id = some order)
      (howner : order.customerId = customerId)
      (hopen : Orders.notCancellable order.status = false) :
      CancelledBy customerId id s (.ok (.order id (order.withStatus .cancelled)),
        { databases := s.databases.commit (.setStatus id .cancelled)
          published := s.published ++ [Orders.orderCancelled id order]
          cache := s.cache.cleared [cacheKey (.order id)] })

theorem cancelledBy_cancelOrder (customerId id : Int) (s : Site (Redis Row)) :
    CancelledBy customerId id s
      (outcome (cancelOrder redisCache ⟨false, some customerId⟩ id) s) := by
  rw [cancelOrder, outcome_databases, Orders.loadCancellable]
  cases hget : s.databases.orders.get? id with
  | none =>
    refine .hidden ?_
    rintro ⟨order, hget', -⟩
    cases hget.symm.trans hget'
  | some order =>
    by_cases hmine : order.customerId = customerId
    · have hpass : (false = true ∨ some customerId = some order.customerId) := .inr (hmine ▸ rfl)
      simp only [if_pos hpass]
      cases hopen : Orders.notCancellable order.status with
      | true => exact .conflict hget hmine hopen
      | false =>
        simp only [Bool.false_eq_true, if_false, outcome_commit,
          outcome_bind_ok (onCache_invalidate _ _)]
        exact .cancelled hget hmine hopen
    · have hfail : ¬ (false = true ∨ some customerId = some order.customerId) := by
        simpa using Ne.symm hmine
      simp only [if_neg hfail]
      refine .hidden ?_
      rintro ⟨order', hget', howner⟩
      cases hget.symm.trans hget'
      exact hmine howner

theorem CancelledBy.same {u v : Except Raised Row × Site (Redis Row)}
    (h : AgreeFor customerId s t) (hu : CancelledBy customerId id s u)
    (hv : CancelledBy customerId id t v) : u.1 = v.1 := by
  have hrow : ∀ {order order' : Orders.Order}, s.databases.orders.get? id = some order →
      t.databases.orders.get? id = some order' → order'.customerId = customerId →
      order = order' := by
    intro order order' hget hget' howner
    exact Option.some.inj (hget.symm.trans ((h.orders id order' howner).mpr hget'))
  cases hu with
  | hidden hnot =>
    cases hv with
    | hidden => rfl
    | conflict hget howner => exact absurd (h.owns.mpr ⟨_, hget, howner⟩) hnot
    | cancelled hget howner => exact absurd (h.owns.mpr ⟨_, hget, howner⟩) hnot
  | conflict hget howner hlate =>
    cases hv with
    | hidden hnot => exact absurd (h.owns.mp ⟨_, hget, howner⟩) hnot
    | conflict hget' howner' => rw [hrow hget hget' howner']
    | cancelled hget' howner' hopen =>
      rw [hrow hget hget' howner', hopen] at hlate
      cases hlate
  | cancelled hget howner hopen =>
    cases hv with
    | hidden hnot => exact absurd (h.owns.mp ⟨_, hget, howner⟩) hnot
    | conflict hget' howner' hlate =>
      rw [hrow hget hget' howner', hlate] at hopen
      cases hopen
    | cancelled hget' howner' => rw [hrow hget hget' howner']

theorem CancelledBy.own {u : Except Raised Row × Site (Redis Row)}
    (hu : CancelledBy customerId id s u) {row : Row} (h : u.1 = .ok row) :
    row.customerId = .ok customerId := by
  cases hu with
  | hidden => cases h
  | conflict => cases h
  | cancelled _ howner =>
    cases h
    exact congrArg Except.ok howner

theorem CancelledBy.of_not_owns {u : Except Raised Row × Site (Redis Row)}
    (hu : CancelledBy customerId id s u) (hnot : ¬ Owns customerId s id) :
    u.1 = .error (.httpException 404 "Order not found") := by
  cases hu with
  | hidden => rfl
  | conflict hget howner => exact absurd ⟨_, hget, howner⟩ hnot
  | cancelled hget howner => exact absurd ⟨_, hget, howner⟩ hnot

theorem CancelledBy.others {u : Except Raised Row × Site (Redis Row)}
    (hu : CancelledBy customerId id s u) {j : Int} (hother : Others customerId s j) :
    u.2.databases.orders.get? j = s.databases.orders.get? j ∧
      (s.cache.Lasting (cacheKey (.order j)) →
        u.2.cache.entries.get? (cacheKey (.order j)) =
          s.cache.entries.get? (cacheKey (.order j))) := by
  cases hu with
  | hidden => exact ⟨rfl, fun _ => rfl⟩
  | conflict => exact ⟨rfl, fun _ => rfl⟩
  | cancelled hget howner =>
    obtain ⟨hid, hname⟩ := hother.ne ⟨_, hget, howner⟩
    refine ⟨?_, fun hlasting => hlasting.get?_cleared (by simpa using hname)⟩
    simp only [Databases.commit, Orders.writeStatus]
    rw [SerialTable.get?_modify, if_neg hid]

theorem isolated_cancelOrder (h : AgreeFor customerId s t) (id : Int) :
    Isolated customerId (.cancelOrder id) s t := by
  have hu := cancelledBy_cancelOrder customerId id s
  refine isolated_of_row rfl (hu.same h (cancelledBy_cancelOrder customerId id t))
    (fun row => hu.own) (fun j hj hnot => ?_) (fun j hother => hu.others hother)
  cases hj
  exact hu.of_not_owns hnot

end CancelOrder

/-- Two states of any lookups and writers that agree on a customer's orders and entries. -/
theorem customers_isolated {databases databases' : Databases} {as bs : List (Act Key String Commit)}
    {d e : State Databases Key String Row}
    (hd : exec (step lookups) (State.start databases) as = some d)
    (he : exec (step lookups) (State.start databases') bs = some e) (outcomes : List Outcome)
    {customerId : Int} (h : AgreeFor customerId (site d outcomes) (site e outcomes))
    (request : CustomerRequest) :
    Isolated customerId request (site d outcomes) (site e outcomes) := by
  cases request with
  | getOrder id =>
    exact isolated_getOrder (honest_site hd outcomes) (honest_site he outcomes) h id
  | listOrders => exact isolated_listOrders h
  | cancelOrder id => exact isolated_cancelOrder h id

/-- Order 2 is another customer's. -/
def withAnother : Databases :=
  { onePending with orders := onePending.orders.insert ⟨11, 500, .pending, [⟨1, 1, 500⟩]⟩ }

def lookUpOther : List (Act Key String Commit) :=
  [.start (.order 2), .lookup 0 true, .load 0, .fill 0 true]

theorem customers_isolated_other :
    ∃ e, exec (step lookups) (State.start withAnother) lookUpOther = some e ∧
      AgreeFor 10 (site (State.start onePending) []) (site e []) ∧
      Isolated 10 (.getOrder 2) (site (State.start onePending) []) (site e []) := by
  have hrun : (exec (step lookups) (State.start withAnother) lookUpOther).isSome := by
    decide +kernel
  obtain ⟨e, he⟩ := Option.isSome_iff_exists.mp hrun
  have hstate : ∀ e ∈ exec (step lookups) (State.start withAnother) lookUpOther,
      e.store.orders = withAnother.orders ∧ e.entries.get? (cacheKey (.order 1)) = none := by
    decide +kernel
  obtain ⟨hstore, hentry⟩ := hstate e he
  have hother : ∀ id order, withAnother.orders.get? id = some order →
      onePending.orders.get? id = some order ∨ order.customerId = 11 := by
    intro id order hget
    simp only [withAnother, SerialTable.get?_insert] at hget
    split_ifs at hget
    · cases hget
      exact .inr rfl
    · exact .inl hget
  have hagree : AgreeFor 10 (site (State.start onePending) []) (site e []) := by
    refine ⟨fun id order howner => ⟨fun hget => ?_, fun hget => ?_⟩, ?_, rfl⟩
    · simp only [site, hstore]
      exact SerialTable.get?_insert_of_some hget _
    · simp only [site, hstore] at hget
      refine (hother id order hget).resolve_right fun heq => ?_
      rw [howner] at heq
      cases heq
    · rintro id ⟨order, hget, -⟩
      have hid : id = 1 := by
        simp only [site, State.start, onePending, SerialTable.get?_insert] at hget
        split_ifs at hget with hnext
        · exact hnext
        · cases hget
      subst hid
      exact hentry.symm
  have hstart :
      exec (step lookups) (State.start onePending) [] = some (State.start onePending) := rfl
  exact ⟨e, he, hagree, customers_isolated hstart he [] hagree (.getOrder 2)⟩

end OrderMesh.Platform
