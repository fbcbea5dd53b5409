import OrderMesh.Library.Relational
import OrderMesh.Platform.Requests

namespace OrderMesh.Platform

open CacheAside Relational Service

/-- The sites differ in their caches only; entries that are about to be deleted are `pending`. -/
structure Mirror (was : Databases → Prop) (pending : List String) (s : Site (Redis Row))
    (t : Site Unit) : Prop where
  databases : s.databases = t.databases
  published : s.published = t.published
  coherent : s.cache.Coherent lookups was s.databases pending

variable {was : Databases → Prop} {pending : List String}
  {E : Raised → Site (Redis Row) → Site Unit → Prop}

theorem mirror_databases :
    Alike (Mirror was pending) Service.databases Service.databases (fun _ => Mirror was pending)
      E := by
  intro s t hmirror
  simp only [Service.databases, hmirror.databases]
  exact .ok hmirror

theorem mirror_commit (c : Commit) :
    Alike (Mirror was []) (commit c) (commit c)
      (fun _ => Mirror was (c.invalidated.map cacheKey)) E := by
  intro s t hmirror
  refine .ok ⟨congrArg (fun d => d.commit c) hmirror.databases, hmirror.published, ?_⟩
  refine CacheAside.Coherent.write hmirror.coherent c (fun _ hd => hd) ?_ ?_
  · rintro name (hdoubt | hnone)
    · exact .inl hdoubt
    · cases hnone
  · exact fun k hk => .inr (List.mem_map_of_mem hk)

theorem mirror_publish (p : Payload) :
    Alike (Mirror was pending) (Service.publish p) (Service.publish p)
      (fun _ => Mirror was pending) E :=
  fun _ _ hmirror => .ok ⟨hmirror.databases, congrArg (· ++ [p]) hmirror.published,
    hmirror.coherent⟩

theorem mirror_invalidate (name : String) :
    Alike (Mirror was (name :: pending)) (onCache (redisCache.invalidate [name]))
      (onCache (noCache.invalidate [name])) (fun _ => Mirror was pending) E := by
  intro s t hmirror
  rw [onCache_invalidate]
  have hcoherent : s.cache.Coherent lookups was s.databases ([name] ++ pending) := hmirror.coherent
  exact .ok ⟨hmirror.databases, hmirror.published, hcoherent.cleared⟩

theorem mirror_invalidateProducts (ids : List Int) :
    Alike (Mirror was ((ids.map Key.product).map cacheKey)) (invalidateProducts redisCache ids)
      (invalidateProducts noCache ids) (fun _ => Mirror was []) E :=
  alike_forM (I := fun ids => Mirror was ((ids.map Key.product).map cacheKey))
    (fun _ _ => mirror_invalidate _) ids

/-- It is not Redis that raised. -/
def Own (e : Raised) : Prop := ∀ error, e ≠ .redis error

/-- Both sites go on alike, and Redis makes neither of them fail. -/
def Parallel (was : Databases → Prop) {α : Type} (x : Service (Redis Row) α) (y : Service Unit α) :
    Prop := Alike (Mirror was []) x y (fun _ => Mirror was [])
      (fun e s t => Mirror was [] s t ∧ Own e)

theorem parallel_pure {α : Type} (a : α) :
    Alike (Mirror was []) (pure a : Service (Redis Row) α) (pure a : Service Unit α)
      (fun _ => Mirror was []) E :=
  alike_pure a fun _ _ hmirror => hmirror

theorem Parallel.map {α β : Type} {x : Service (Redis Row) α} {y : Service Unit α}
    (h : Parallel was x y) (f : α → β) : Parallel was (f <$> x) (f <$> y) := Alike.map h

theorem parallel_throw {α : Type} (e : Raised) (hown : Own e) :
    Parallel was (throw e : Service (Redis Row) α) (throw e : Service Unit α) :=
  alike_throw e fun _ _ hmirror => ⟨hmirror, hown⟩

theorem own_refusal (r : Orders.Refusal) : Own (refusal r) := by
  intro error h
  cases r <;> cases h

theorem parallel_intUserId (caller : Orders.Caller) :
    Parallel was (liftExcept (intUserId caller)) (liftExcept (intUserId caller)) := by
  unfold intUserId
  cases caller.customerId with
  | none => exact parallel_throw .valueError (fun _ h => nomatch h)
  | some customerId => exact parallel_pure customerId

theorem parallel_createOrder (caller : Orders.Caller) (payload : Orders.OrderCreate) :
    Parallel was (createOrder caller payload) (createOrder caller payload) := by
  refine (parallel_intUserId caller).bind fun customerId => mirror_databases.bind fun d => ?_
  cases Orders.newOrder customerId payload with
  | none => exact parallel_throw _ fun _ h => nomatch h
  | some order =>
    exact (mirror_commit _).bind fun _ => (mirror_publish _).bind fun _ => parallel_pure _

theorem parallel_listOrders (caller : Orders.Caller) :
    Parallel was (listOrders caller) (listOrders caller) := by
  have hrows : ∀ customerId : Option Int,
      Parallel was (ordersOf customerId) (ordersOf customerId) :=
    fun customerId => mirror_databases.bind fun d => parallel_pure _
  unfold Parallel listOrders
  split_ifs
  · exact hrows none
  · exact (parallel_intUserId caller).bind fun customerId => hrows (some customerId)

theorem parallel_cancelOrder (caller : Orders.Caller) (id : Int) :
    Parallel was (cancelOrder redisCache caller id) (cancelOrder noCache caller id) := by
  refine mirror_databases.bind fun d => ?_
  cases Orders.loadCancellable d.orders caller id with
  | error r => exact parallel_throw _ (own_refusal r)
  | ok order =>
    exact (mirror_commit _).bind fun _ => (mirror_invalidate _).bind fun _ =>
      (mirror_publish _).bind fun _ => parallel_pure _

theorem parallel_setStatus (id : Int) (status : Orders.OrderStatus) :
    Parallel was (setStatus redisCache id status) (setStatus noCache id status) := by
  refine mirror_databases.bind fun d => ?_
  cases d.orders.get? id with
  | none => exact parallel_pure _
  | some order =>
    dsimp only
    split_ifs
    · exact parallel_pure _
    · exact (mirror_commit _).bind fun _ => mirror_invalidate _

theorem parallel_createProduct (id : Int) (payload : Inventory.ProductCreate) :
    Parallel was (createProduct id payload) (createProduct id payload) := by
  refine mirror_databases.bind fun d => ?_
  cases Inventory.createProduct d.stock id payload with
  | none => exact parallel_throw _ fun _ h => nomatch h
  | some product => exact (mirror_commit _).bind fun _ => parallel_pure _

theorem parallel_listProducts : Parallel was listProducts listProducts :=
  mirror_databases.bind fun _ => parallel_pure _

theorem parallel_reserveForOrder (orderId : Int) (items : List Item) :
    Parallel was (reserveForOrder redisCache orderId items)
      (reserveForOrder noCache orderId items) := by
  refine mirror_databases.bind fun d => ?_
  dsimp only
  split_ifs
  · exact (mirror_commit _).bind fun _ => (mirror_invalidateProducts _).bind fun _ =>
      parallel_pure _
  · exact parallel_pure _
  · exact parallel_pure _

theorem parallel_releaseForOrder (orderId : Int) :
    Parallel was (releaseForOrder redisCache orderId) (releaseForOrder noCache orderId) := by
  refine mirror_databases.bind fun d => ?_
  dsimp only
  split_ifs
  · exact parallel_pure _
  · exact (mirror_commit _).bind fun _ => (mirror_invalidateProducts _).bind fun _ =>
      parallel_pure _

theorem parallel_onOrderCreated (orderId : Int) (items : List Item) :
    Parallel was (onOrderCreated redisCache orderId items)
      (onOrderCreated noCache orderId items) := by
  refine (parallel_reserveForOrder orderId items).bind fun reserved => ?_
  split_ifs
  · exact mirror_publish _
  · exact mirror_publish _

theorem parallel_onOrderCancelled (orderId : Int) :
    Parallel was (onOrderCancelled redisCache orderId) (onOrderCancelled noCache orderId) := by
  refine (parallel_releaseForOrder orderId).bind fun released => ?_
  split_ifs
  · exact mirror_publish _
  · exact parallel_pure _

theorem parallel_createShipment (orderId : Int) (courier : String) (year : Nat) :
    Parallel was (createShipment orderId courier year) (createShipment orderId courier year) := by
  refine mirror_databases.bind fun d => ?_
  dsimp only
  cases Shipping.existing d.shipments orderId with
  | some shipment => exact parallel_pure _
  | none =>
    cases Shipping.insertShipment d.shipments orderId courier year with
    | none => exact parallel_throw _ fun _ h => nomatch h
    | some shipment => exact (mirror_commit _).bind fun _ => parallel_pure _

theorem parallel_onStockReserved (orderId : Int) (courier : String) (year : Nat) :
    Parallel was (onStockReserved orderId courier year) (onStockReserved orderId courier year) :=
  (parallel_createShipment orderId courier year).bind fun _ => mirror_publish _

theorem parallel_updateShipmentStatus (id : Int) (status : Shipping.ShipmentStatus) :
    Parallel was (updateShipmentStatus redisCache id status)
      (updateShipmentStatus noCache id status) := by
  refine mirror_databases.bind fun d => ?_
  cases d.shipments.get? id with
  | none => exact parallel_throw _ fun _ h => nomatch h
  | some shipment =>
    refine (mirror_commit _).bind fun _ => (mirror_invalidate _).bind fun _ => ?_
    dsimp only
    split_ifs
    · exact (mirror_publish _).bind fun _ => parallel_pure _
    · exact parallel_pure _

section Lookups

variable (key : Key) (check : Row → Except Raised Unit) (detail : String)

/-- A lookup replies with the current row, or with an earlier one where a delete of it
raised and its entry is still there. -/
theorem lookUp_reply {s : Site (Redis Row)} {t : Site Unit} (hmirror : Mirror was [] s t)
    (hwas : was s.databases) :
    ((outcome (lookUp redisCache key check detail) s).1 =
      fromDatabase key check detail s.databases ∨
      cacheKey key ∈ s.cache.next.undeleted ∧ ∃ d, was d ∧
        (outcome (lookUp redisCache key check detail) s).1 = fromDatabase key check detail d) ∧
      Mirror was [] (outcome (lookUp redisCache key check detail) s).2 t := by
  cases h : s.cache.found (cacheKey key) with
  | none =>
    rw [lookUp_missed key check detail h]
    refine ⟨.inl rfl, hmirror.databases, hmirror.published, ?_⟩
    cases hanswer : fromDatabase key check detail s.databases with
    | error e => exact hmirror.coherent.next
    | ok row => exact hmirror.coherent.next.stored hwas (fromDatabase_eq_ok hanswer).1
  | some row =>
    rw [lookUp_found key check detail h]
    refine ⟨?_, hmirror.databases, hmirror.published, hmirror.coherent.next⟩
    have hentry := Redis.get?_of_found h
    have hanswer : ∀ d : Databases, d.row key = some row →
        fromDatabase key check detail d = (check row).map fun _ => row := by
      intro d hrow
      rw [fromDatabase, hrow]
    by_cases hdoubt : cacheKey key ∈ s.cache.next.undeleted
    · obtain ⟨d, hd, hrow⟩ := hmirror.coherent.next.genuine key row hentry
      exact .inr ⟨hdoubt, d, hd, (hanswer d hrow).symm⟩
    · have hnone : ¬ (cacheKey key ∈ s.cache.next.undeleted ∨ cacheKey key ∈ []) := by
        simpa using hdoubt
      exact .inl (hanswer s.databases (hmirror.coherent.next.current key row hentry hnone)).symm

theorem own_fromDatabase (hcheck : ∀ row e, check row = .error e → Own e) (d : Databases)
    {e : Raised}
    (h : fromDatabase key check detail d = .error e) : Own e := by
  rcases fromDatabase_eq_error h with rfl | ⟨row, hrow⟩
  · exact fun _ heq => nomatch heq
  · exact hcheck row e hrow

end Lookups

theorem own_checkOwner (caller : Orders.Caller) (row : Row) (e : Raised)
    (h : checkOwner caller row = .error e) : Own e := by
  intro error heq
  subst heq
  rw [checkOwner_eq] at h
  cases row <;> simp only [Row.customerId] at h <;> split at h
  case order.isFalse id o hadmin =>
    cases hc : caller.customerId with
    | none => simp [hc] at h
    | some customerId =>
      simp only [hc] at h
      split_ifs at h
      cases h
  all_goals cases h

/-- The row an operation looks up. -/
def Operation.looksUp : Operation → Option Key
  | .getOrder _ id => some (.order id)
  | .getProduct id => some (.product id)
  | .getShipment id => some (.shipment id)
  | _ => none

theorem Mirror.mono {was' : Databases → Prop} {s : Site (Redis Row)} {t : Site Unit}
    (h : Mirror was pending s t) (hwas : ∀ d, was d → was' d) : Mirror was' pending s t := by
  refine ⟨h.databases, h.published, fun k v hget => ?_, h.coherent.current⟩
  obtain ⟨d, hd, hrow⟩ := h.coherent.genuine k v hget
  exact ⟨d, hwas d hd, hrow⟩

/-- What one operation does on the two sites. -/
structure Transparent (was : Databases → Prop) (op : Operation) (s : Site (Redis Row))
    (t : Site Unit) : Prop where
  mirror : Mirror was [] (outcome (serve redisCache op) s).2 (outcome (serve noCache op) t).2
  own : ∀ e, reply redisCache s op = .error e → Own e
  reply : reply redisCache s op = reply noCache t op ∨
    ∃ key ∈ op.looksUp, cacheKey key ∈ s.cache.next.undeleted ∧
      ∃ d, was d ∧ ∀ u : Site Unit, u.databases = d → reply redisCache s op = reply noCache u op

theorem Parallel.transparent {op : Operation}
    (h : Parallel was (serve redisCache op) (serve noCache op)) {s : Site (Redis Row)}
    {t : Site Unit}
    (hmirror : Mirror was [] s t) : Transparent was op s t := by
  have hrun := h s t hmirror
  have hends : Mirror was [] (outcome (serve redisCache op) s).2 (outcome (serve noCache op) t).2 ∧
      (∀ e, reply redisCache s op = .error e → Own e) ∧
      reply redisCache s op = reply noCache t op := by
    unfold reply outcome
    generalize serve redisCache op s = u, serve noCache op t = v at hrun ⊢
    cases hrun with
    | ok hpost => exact ⟨hpost, fun _ heq => (nomatch heq), rfl⟩
    | error herr =>
      refine ⟨herr.1, fun e heq => ?_, rfl⟩
      cases heq
      exact herr.2
  exact ⟨hends.1, hends.2.1, .inl hends.2.2⟩

theorem transparent_lookUp {op : Operation} {key : Key} {check : Row → Except Raised Unit}
    {detail : String} (hop : op.looksUp = some key)
    (hredis : serve redisCache op = Reply.row <$> lookUp redisCache key check detail)
    (hbare : serve noCache op = Reply.row <$> lookUp noCache key check detail)
    (hcheck : ∀ row e, check row = .error e → Own e) {s : Site (Redis Row)} {t : Site Unit}
    (hmirror : Mirror was [] s t) (hwas : was s.databases) : Transparent was op s t := by
  obtain ⟨hreply, hafter⟩ := lookUp_reply key check detail hmirror hwas
  have hnone : ∀ u, outcome (serve noCache op) u =
      ((fromDatabase key check detail u.databases).map .row, u) := by
    intro u
    rw [hbare, outcome_map, lookUp_noCache]
  have hfound : reply redisCache s op =
      (outcome (lookUp redisCache key check detail) s).1.map .row := by
    rw [reply, hredis, outcome_map]
  have hsource : ∃ d, (outcome (lookUp redisCache key check detail) s).1 =
      fromDatabase key check detail d := by
    rcases hreply with heq | ⟨-, d, -, heq⟩
    · exact ⟨s.databases, heq⟩
    · exact ⟨d, heq⟩
  refine ⟨?_, fun e he => ?_, ?_⟩
  · rw [hnone, hredis, outcome_map]
    exact hafter
  · obtain ⟨d, hd⟩ := hsource
    rw [hfound, hd] at he
    cases hdb : fromDatabase key check detail d with
    | ok row => simp [hdb, Except.map] at he
    | error e' =>
      simp only [hdb, Except.map, Except.error.injEq] at he
      exact he ▸ own_fromDatabase key check detail hcheck d hdb
  · rw [hfound]
    rcases hreply with heq | ⟨hdoubt, d, hd, heq⟩
    · left
      rw [heq, reply, hnone, hmirror.databases]
    · refine .inr ⟨key, hop, hdoubt, d, hd, fun u hu => ?_⟩
      rw [heq, reply, hnone, hu]

theorem transparent_serve (op : Operation) {s : Site (Redis Row)} {t : Site Unit}
    (hmirror : Mirror was [] s t) (hwas : was s.databases) : Transparent was op s t := by
  have hfree : ∀ row e, (fun _ : Row => Except.ok (ε := Raised) ()) row = .error e → Own e :=
    fun _ _ heq => nomatch heq
  cases op with
  | createOrder caller payload =>
    exact ((parallel_createOrder caller payload).map _).transparent hmirror
  | listOrders caller => exact ((parallel_listOrders caller).map _).transparent hmirror
  | getOrder caller id =>
    exact transparent_lookUp rfl rfl rfl (own_checkOwner caller) hmirror hwas
  | cancelOrder caller id => exact ((parallel_cancelOrder caller id).map _).transparent hmirror
  | setStatus id status => exact ((parallel_setStatus id status).map _).transparent hmirror
  | createProduct id payload =>
    exact ((parallel_createProduct id payload).map _).transparent hmirror
  | listProducts => exact (parallel_listProducts.map _).transparent hmirror
  | getProduct id => exact transparent_lookUp rfl rfl rfl hfree hmirror hwas
  | onOrderCreated orderId items =>
    exact ((parallel_onOrderCreated orderId items).map _).transparent hmirror
  | onOrderCancelled orderId =>
    exact ((parallel_onOrderCancelled orderId).map _).transparent hmirror
  | getShipment id => exact transparent_lookUp rfl rfl rfl hfree hmirror hwas
  | onStockReserved orderId courier year =>
    exact ((parallel_onStockReserved orderId courier year).map _).transparent hmirror
  | updateShipmentStatus id status =>
    exact ((parallel_updateShipmentStatus id status).map _).transparent hmirror

/-- A site whose Redis is empty, with the outcomes of all its calls. -/
def Site.start (databases : Databases) (outcomes : List Outcome) : Site (Redis Row) :=
  ⟨databases, [], ⟨.empty, [], outcomes⟩⟩

def Site.bare (databases : Databases) : Site Unit := ⟨databases, [], ()⟩

theorem mirror_after (databases : Databases) (outcomes : List Outcome) (ops : List Operation) :
    Mirror (fun d => ∃ pre, pre <+: ops ∧ (after noCache (.bare databases) pre).databases = d) []
      (after redisCache (.start databases outcomes) ops) (after noCache (.bare databases) ops) := by
  induction ops using List.reverseRecOn with
  | nil => exact ⟨rfl, rfl, fun _ _ hget => (by cases hget), fun _ _ hget => by cases hget⟩
  | append_singleton ops op ih =>
    have hwas : ∃ pre, pre <+: ops ∧ (after noCache (.bare databases) pre).databases =
        (after redisCache (.start databases outcomes) ops).databases :=
      ⟨ops, List.prefix_rfl, ih.databases.symm⟩
    rw [after_append, after_append]
    refine (transparent_serve op ih hwas).mirror.mono ?_
    rintro d ⟨pre, hpre, heq⟩
    exact ⟨pre, hpre.trans (List.prefix_append _ _), heq⟩

/-- Whatever Redis does, the rows and the events are those of a run without a cache, nothing
fails because of Redis, and a lookup replies as there, or as earlier in that run where a
delete of its entry raised and the entry has not gone since. -/
theorem redis_degrades (databases : Databases) (outcomes : List Outcome) (ops : List Operation)
    (op : Operation) :
    (after redisCache (.start databases outcomes) ops).databases =
        (after noCache (.bare databases) ops).databases ∧
      (after redisCache (.start databases outcomes) ops).published =
        (after noCache (.bare databases) ops).published ∧
      (∀ error, reply redisCache (after redisCache (.start databases outcomes) ops) op ≠
        .error (.redis error)) ∧
      (reply redisCache (after redisCache (.start databases outcomes) ops) op =
          reply noCache (after noCache (.bare databases) ops) op ∨
        ∃ key ∈ op.looksUp,
          cacheKey key ∈ (after redisCache (.start databases outcomes) ops).cache.next.undeleted ∧
          ∃ pre, pre <+: ops ∧
            reply redisCache (after redisCache (.start databases outcomes) ops) op =
              reply noCache (after noCache (.bare databases) pre) op) := by
  have hmirror := mirror_after databases outcomes ops
  have hserve := transparent_serve op hmirror ⟨ops, List.prefix_rfl, hmirror.databases.symm⟩
  refine ⟨hmirror.databases, hmirror.published, fun error heq => hserve.own _ heq error rfl, ?_⟩
  refine hserve.reply.imp_right ?_
  rintro ⟨key, hkey, hdoubt, d, ⟨pre, hpre, hd⟩, heq⟩
  exact ⟨key, hkey, hdoubt, pre, hpre, heq _ hd⟩

def succeeds : Outcome := ⟨none, []⟩

def timesOut : Outcome := ⟨some .timeout, []⟩

/-- The row of order 1 is cached before it is confirmed, and its delete raises. -/
theorem failedInvalidate_stale :
    ¬ ∀ databases outcomes ops op,
      reply redisCache (after redisCache (.start databases outcomes) ops) op =
        reply noCache (after noCache (.bare databases) ops) op := by
  intro hall
  have hsame := hall onePending [succeeds, succeeds, timesOut]
    [.getOrder ⟨false, some 10⟩ 1, .setStatus 1 .confirmed] (.getOrder ⟨false, some 10⟩ 1)
  revert hsame
  decide +kernel

end OrderMesh.Platform
