import OrderMesh.Library.Pool
import OrderMesh.Library.Transition
import OrderMesh.Shared.Events.Consumer

namespace OrderMesh

open Pool Transition

variable {Q : Type}

/-- The queues with their messages, what each handler has seen and what each
queue has dead-lettered, and the copies whose backoff is running. -/
structure Fanout (Q : Type) where
  queues : Q → List Message
  seen : Q → List Message
  dead : Q → List Message
  pending : List Message

inductive Delivery (Q : Type)
  | deliver (q : Q) (i : Nat)
  | republish (i : Nat)

/-- Whether the handler of a queue succeeds at its `k`-th run. -/
abbrev Outcomes (Q : Type) := Q → Nat → Bool

def handlesType (e : Event) (eventType : String) : Bool := eventType = e.eventType

def toAll (d : Fanout Q) (m : Message) : Fanout Q := { d with queues := fun q => d.queues q ++ [m] }

/-- Hand the `i`-th message of a queue to its handler. -/
def Fanout.take [DecidableEq Q] (d : Fanout Q) (q : Q) (i : Nat) (m : Message) : Fanout Q :=
  { d with
    queues := Function.update d.queues q ((d.queues q).eraseIdx i)
    seen := Function.update d.seen q (d.seen q ++ [m]) }

def fanoutStep [DecidableEq Q] (e : Event) (ω : Outcomes Q) (d : Fanout Q) :
    Delivery Q → Option (Fanout Q)
  | .deliver q i => do
      let m ← (d.queues q)[i]?
      let settled ← settle maxRetries (handlesType e) m (ω q (d.seen q).length)
      match settled with
      | .acked => return d.take q i m
      | .rejected => return { d.take q i m with dead := Function.update d.dead q (d.dead q ++ [m]) }
      | .republished copy => return { d.take q i m with pending := d.pending ++ [copy] }
  | .republish i => do
      let m ← d.pending[i]?
      return toAll { d with pending := d.pending.eraseIdx i } m

/-- The event has been published once. -/
def Fanout.start (e : Event) : Fanout Q :=
  toAll ⟨fun _ => [], fun _ => [], fun _ => [], []⟩ (publish e)

def Fanout.Complete (d : Fanout Q) : Prop := (∀ q, d.queues q = []) ∧ d.pending = []

/-- What a queue that is alone sees and dead-letters, from its `k`-th run on. -/
def solo (e : Event) (outcomes : Nat → Bool) : Nat → Nat → Message → List Message × List Message
  | 0, _, _ => ([], [])
  | fuel + 1, k, m =>
      match settle maxRetries (handlesType e) m (outcomes k) with
      | some .rejected => ([m], [m])
      | some (.republished copy) =>
          let rest := solo e outcomes fuel (k + 1) copy
          (m :: rest.1, rest.2)
      | _ => ([m], [])

/-- Each queue sees and dead-letters what it would alone. -/
def Isolated (e : Event) (ω : Outcomes Q) (d : Fanout Q) : Prop :=
  ∀ q, (d.seen q, d.dead q) = solo e (ω q) maxRetries.toNat 0 (publish e)

/-- A copy of the event with a readable retry count. -/
structure Message.CopyOf (m : Message) (e : Event) (r : Int) : Prop where
  body : m.body = .event e
  retry : m.retry = some r

theorem copyOf_publish (e : Event) : (publish e).CopyOf e 0 := ⟨rfl, retry_publish e⟩

theorem Message.CopyOf.republished {m : Message} {e : Event} {r : Int} (h : m.CopyOf e r)
    (s : Int) : (m.republished s).CopyOf e s :=
  ⟨(m.body_republished s).trans h.body, m.retry_republished s⟩

theorem Message.CopyOf.settle {m : Message} {e : Event} {r : Int} (h : m.CopyOf e r) (ok : Bool) :
    settle maxRetries (handlesType e) m ok = some (if ok then .acked
      else if r + 1 ≥ maxRetries then .rejected else .republished (m.republished (r + 1))) :=
  settle_event h.body (by simp [handlesType]) h.retry ok

/-- Everything one step can do with live copies. -/
inductive Fanned [DecidableEq Q] (e : Event) (ω : Outcomes Q) (d : Fanout Q) : Fanout Q → Prop
  | acked {q i m} (hm : (d.queues q)[i]? = some m) (hok : ω q (d.seen q).length = true) :
      Fanned e ω d (d.take q i m)
  | rejected {q i m r} (hm : (d.queues q)[i]? = some m) (hok : ω q (d.seen q).length = false)
      (hcopy : m.CopyOf e r) (hr : r + 1 ≥ maxRetries) :
      Fanned e ω d { d.take q i m with dead := Function.update d.dead q (d.dead q ++ [m]) }
  | failed {q i m r} (hm : (d.queues q)[i]? = some m) (hok : ω q (d.seen q).length = false)
      (hcopy : m.CopyOf e r) (hr : r + 1 < maxRetries) :
      Fanned e ω d { d.take q i m with pending := d.pending ++ [m.republished (r + 1)] }
  | republished {i m} (hm : d.pending[i]? = some m) :
      Fanned e ω d (toAll { d with pending := d.pending.eraseIdx i } m)

/-- Every message in a queue or in backoff is a copy of the event. -/
def Fanout.Live (e : Event) (d : Fanout Q) : Prop :=
  (∀ q, ∀ m ∈ d.queues q, ∃ r, m.CopyOf e r) ∧ ∀ m ∈ d.pending, ∃ r, m.CopyOf e r

theorem live_start (e : Event) : (Fanout.start e : Fanout Q).Live e := by
  refine ⟨fun q m hm => ?_, fun m hm => by cases hm⟩
  have heq : m = publish e := by simpa [Fanout.start, toAll] using hm
  exact ⟨0, heq ▸ copyOf_publish e⟩

section

variable [DecidableEq Q] (d : Fanout Q) (q : Q) (i : Nat) (m : Message)

@[simp] theorem Fanout.take_pending : (d.take q i m).pending = d.pending := rfl

@[simp] theorem Fanout.take_dead : (d.take q i m).dead = d.dead := rfl

@[simp] theorem Fanout.take_queues_self : (d.take q i m).queues q = (d.queues q).eraseIdx i :=
  Function.update_self ..

@[simp] theorem Fanout.take_seen_self : (d.take q i m).seen q = d.seen q ++ [m] :=
  Function.update_self ..

theorem Fanout.take_queues_of_ne {x : Q} (hx : x ≠ q) : (d.take q i m).queues x = d.queues x :=
  Function.update_of_ne hx ..

theorem Fanout.take_seen_of_ne {x : Q} (hx : x ≠ q) : (d.take q i m).seen x = d.seen x :=
  Function.update_of_ne hx ..

end

variable [DecidableEq Q]

theorem fanoutStep_fanned {e : Event} {ω : Outcomes Q} {d d' : Fanout Q} {a : Delivery Q}
    (hlive : d.Live e) (h : fanoutStep e ω d a = some d') : Fanned e ω d d' := by
  cases a with
  | deliver q i =>
    simp only [fanoutStep, bind, Option.bind_eq_some_iff] at h
    obtain ⟨m, hm, settled, hsettled, hout⟩ := h
    obtain ⟨r, hcopy⟩ := hlive.1 q m (List.mem_of_getElem? hm)
    rw [hcopy.settle] at hsettled
    cases Option.some.inj hsettled
    by_cases hok : ω q (d.seen q).length = true
    · rw [if_pos hok] at hout
      cases hout
      exact .acked hm hok
    · rw [if_neg hok] at hout
      have hfail : ω q (d.seen q).length = false := by simpa using hok
      by_cases hr : r + 1 ≥ maxRetries
      · rw [if_pos hr] at hout
        cases hout
        exact .rejected hm hfail hcopy hr
      · rw [if_neg hr] at hout
        cases hout
        exact .failed hm hfail hcopy (by omega)
  | republish i =>
    simp only [fanoutStep, bind, Option.bind_eq_some_iff] at h
    obtain ⟨m, hm, hout⟩ := h
    cases hout
    exact .republished hm

theorem mem_update_eraseIdx {queues : Q → List Message} {q x : Q} {i : Nat} {m : Message}
    (h : m ∈ Function.update queues q ((queues q).eraseIdx i) x) : m ∈ queues x := by
  by_cases hx : x = q
  · subst hx
    rw [Function.update_self] at h
    exact List.mem_of_mem_eraseIdx h
  · rwa [Function.update_of_ne hx] at h

theorem Fanned.live {e : Event} {ω : Outcomes Q} {d d' : Fanout Q} (hlive : d.Live e)
    (h : Fanned e ω d d') : d'.Live e := by
  obtain ⟨hqueues, hpending⟩ := hlive
  cases h with
  | acked => exact ⟨fun x m hm => hqueues x m (mem_update_eraseIdx hm), hpending⟩
  | rejected => exact ⟨fun x m hm => hqueues x m (mem_update_eraseIdx hm), hpending⟩
  | failed hm hok hcopy hr =>
    refine ⟨fun x m hm => hqueues x m (mem_update_eraseIdx hm), fun m hm => ?_⟩
    rcases List.mem_append.mp hm with hold | hnew
    · exact hpending m hold
    · rw [List.mem_singleton.mp hnew]
      exact ⟨_, hcopy.republished _⟩
  | @republished i m hm =>
    refine ⟨fun x y hy => ?_, fun y hy => hpending y (List.mem_of_mem_eraseIdx hy)⟩
    rcases List.mem_append.mp hy with hold | hnew
    · exact hqueues x y hold
    · rw [List.mem_singleton.mp hnew]
      exact hpending m (List.mem_of_getElem? hm)

/-- An invariant of the steps on live copies holds along every run. -/
theorem exec_fanned {e : Event} {ω : Outcomes Q} (I : Fanout Q → Prop)
    (hstep : ∀ d d', d.Live e → I d → Fanned e ω d d' → I d') (hstart : I (.start e))
    {acts : List (Delivery Q)} {d : Fanout Q}
    (hrun : exec (fanoutStep e ω) (.start e) acts = some d) : I d := by
  have hboth : d.Live e ∧ I d := by
    refine exec_invariant (fun d => d.Live e ∧ I d) ?_ ⟨live_start e, hstart⟩ hrun
    intro u a v ⟨hlive, hu⟩ hs
    have hfanned := fanoutStep_fanned hlive hs
    exact ⟨hfanned.live hlive, hstep u v hlive hu hfanned⟩
  exact hboth.2

theorem solo_copy {e : Event} {m : Message} {r : Int} (h : m.CopyOf e r) (outcomes : Nat → Bool)
    (fuel k : Nat) :
    solo e outcomes (fuel + 1) k m =
      if outcomes k then ([m], [])
      else if r + 1 ≥ maxRetries then ([m], [m])
      else (m :: (solo e outcomes fuel (k + 1) (m.republished (r + 1))).1,
        (solo e outcomes fuel (k + 1) (m.republished (r + 1))).2) := by
  rw [solo, h.settle]
  by_cases hok : outcomes k = true
  · simp only [if_pos hok]
  · by_cases hr : r + 1 ≥ maxRetries
    · simp only [if_neg hok, if_pos hr]
    · simp only [if_neg hok, if_neg hr]

theorem solo_succeeds {e : Event} {outcomes : Nat → Bool} (h : outcomes 0 = true) :
    solo e outcomes maxRetries.toNat 0 (publish e) = ([publish e], []) :=
  (solo_copy (copyOf_publish e) outcomes 2 0).trans (if_pos h)

/-- Nothing is ever retried: a queue still has the event or has handled it. -/
def Fanout.Quiet (e : Event) (d : Fanout Q) : Prop :=
  d.pending = [] ∧ ∀ q, d.dead q = [] ∧
    ((d.queues q = [publish e] ∧ d.seen q = []) ∨ (d.queues q = [] ∧ d.seen q = [publish e]))

theorem Fanned.quiet {e : Event} {ω : Outcomes Q} (hω : ∀ q, ω q 0 = true) {u v : Fanout Q}
    (hu : u.Quiet e) (hs : Fanned e ω u v) : v.Quiet e := by
  obtain ⟨hpending, hqueues⟩ := hu
  have hfirst : ∀ (q : Q) (i : Nat) (m : Message), (u.queues q)[i]? = some m →
      u.queues q = [publish e] ∧ u.seen q = [] ∧ m = publish e ∧ i = 0 := by
    intro q i m hm
    rcases (hqueues q).2 with ⟨hq, hseen⟩ | ⟨hq, -⟩
    · rw [hq] at hm
      cases i with
      | zero => exact ⟨hq, hseen, (Option.some.inj hm).symm, rfl⟩
      | succ i => simp at hm
    · rw [hq] at hm
      simp at hm
  have hnofail : ∀ (q : Q) (i : Nat) (m : Message), (u.queues q)[i]? = some m →
      ω q (u.seen q).length ≠ false := by
    intro q i m hm hfail
    obtain ⟨-, hseen, -, -⟩ := hfirst q i m hm
    rw [hseen, List.length_nil, hω q] at hfail
    cases hfail
  cases hs with
  | @acked q i m hm hok =>
    obtain ⟨hq, hseen, rfl, rfl⟩ := hfirst q i m hm
    refine ⟨hpending, fun x => ⟨(hqueues x).1, ?_⟩⟩
    by_cases hx : x = q
    · subst hx
      refine .inr ⟨?_, ?_⟩
      · simp [hq]
      · simp [hseen]
    · rw [u.take_queues_of_ne q 0 (publish e) hx, u.take_seen_of_ne q 0 (publish e) hx]
      exact (hqueues x).2
  | rejected hm hok => exact absurd hok (hnofail _ _ _ hm)
  | failed hm hok => exact absurd hok (hnofail _ _ _ hm)
  | republished hm =>
    rw [hpending] at hm
    simp at hm

theorem quiet_of_succeeds {e : Event} {ω : Outcomes Q} (hω : ∀ q, ω q 0 = true)
    {acts : List (Delivery Q)} {d : Fanout Q}
    (hrun : exec (fanoutStep e ω) (.start e) acts = some d) : d.Quiet e :=
  exec_fanned (Fanout.Quiet e) (fun _ _ _ hu hs => hs.quiet hω hu)
    ⟨rfl, fun _ => ⟨rfl, .inl ⟨rfl, rfl⟩⟩⟩ hrun

theorem isolated_of_succeeds {e : Event} {ω : Outcomes Q} (hω : ∀ q, ω q 0 = true)
    {acts : List (Delivery Q)} {d : Fanout Q}
    (hrun : exec (fanoutStep e ω) (.start e) acts = some d) (hdone : d.Complete) :
    Isolated e ω d := by
  intro q
  obtain ⟨-, hqueues⟩ := quiet_of_succeeds hω hrun
  obtain ⟨hdead, hcase⟩ := hqueues q
  rw [solo_succeeds (hω q), hdead]
  rcases hcase with ⟨hq, -⟩ | ⟨-, hseen⟩
  · rw [hdone.1 q] at hq
    cases hq
  · rw [hseen]

/-- The one copy that is alive, with what the queue has yet to see of it. -/
inductive Fanout.Lone (e : Event) (outcomes : Nat → Bool) (q : Q) (d : Fanout Q) : Prop
  | live (m : Message) (r : Int) (fuel : Nat) (hcopy : m.CopyOf e r)
      (hfuel : maxRetries - r ≤ fuel) (hpos : 0 < fuel) (hone : d.queues q ++ d.pending = [m])
      (hrest : (d.seen q ++ (solo e outcomes fuel (d.seen q).length m).1,
        d.dead q ++ (solo e outcomes fuel (d.seen q).length m).2) =
          solo e outcomes maxRetries.toNat 0 (publish e))
  | spent (hnone : d.queues q ++ d.pending = [])
      (hall : (d.seen q, d.dead q) = solo e outcomes maxRetries.toNat 0 (publish e))

omit [DecidableEq Q] in
/-- The message delivered is the one that is alive. -/
theorem delivered_alone {d : Fanout Q} {q : Q} {m y : Message} {i : Nat}
    (hone : d.queues q ++ d.pending = [m]) (hy : (d.queues q)[i]? = some y) :
    y = m ∧ d.pending = [] ∧ (d.queues q).eraseIdx i = [] := by
  rcases List.append_eq_singleton_iff.mp hone with ⟨hq, -⟩ | ⟨hq, hp⟩
  · rw [hq] at hy
    simp at hy
  · rw [hq] at hy
    cases i with
    | zero => exact ⟨(Option.some.inj hy).symm, hp, by rw [hq]; rfl⟩
    | succ i => simp at hy

omit [DecidableEq Q] in
theorem republished_alone {d : Fanout Q} {q : Q} {m y : Message} {i : Nat}
    (hone : d.queues q ++ d.pending = [m]) (hy : d.pending[i]? = some y) :
    y = m ∧ d.queues q = [] ∧ d.pending.eraseIdx i = [] := by
  rcases List.append_eq_singleton_iff.mp hone with ⟨hq, hp⟩ | ⟨-, hp⟩
  · rw [hp] at hy
    cases i with
    | zero => exact ⟨(Option.some.inj hy).symm, hq, by rw [hp]; rfl⟩
    | succ i => simp at hy
  · rw [hp] at hy
    simp at hy

theorem Fanned.not_spent (hQ : Subsingleton Q) {e : Event} {ω : Outcomes Q} {q : Q} {u v : Fanout Q}
    (hnone : u.queues q ++ u.pending = []) (hs : Fanned e ω u v) : False := by
  obtain ⟨hq, hpending⟩ := List.append_eq_nil_iff.mp hnone
  cases hs with
  | @acked x i m hm => rw [Subsingleton.elim x q, hq] at hm; simp at hm
  | @rejected x i m r hm => rw [Subsingleton.elim x q, hq] at hm; simp at hm
  | @failed x i m r hm => rw [Subsingleton.elim x q, hq] at hm; simp at hm
  | republished hm => rw [hpending] at hm; simp at hm

theorem Fanned.lone (hQ : Subsingleton Q) {e : Event} {ω : Outcomes Q} {q : Q} {u v : Fanout Q}
    (hu : u.Lone e (ω q) q) (hs : Fanned e ω u v) : v.Lone e (ω q) q := by
  cases hu with
  | spent hnone hall => exact (hs.not_spent hQ hnone).elim
  | live m r fuel hcopy hfuel hpos hone hrest =>
    obtain ⟨fuel, rfl⟩ : ∃ f, fuel = f + 1 := ⟨fuel - 1, by omega⟩
    rw [solo_copy hcopy] at hrest
    cases hs with
    | @acked x i y hm hok =>
      cases Subsingleton.elim x q
      obtain ⟨rfl, hp, herase⟩ := delivered_alone hone hm
      rw [if_pos hok] at hrest
      refine .spent ?_ ?_
      · simp [herase, hp]
      · simpa using hrest
    | @rejected x i y s hm hok hcopy' hr =>
      cases Subsingleton.elim x q
      obtain ⟨rfl, hp, herase⟩ := delivered_alone hone hm
      have hrs : r = s := Option.some.inj (hcopy.retry.symm.trans hcopy'.retry)
      rw [if_neg (by simp [hok]), if_pos (hrs ▸ hr)] at hrest
      refine .spent ?_ ?_
      · simp [herase, hp]
      · simpa using hrest
    | @failed x i y s hm hok hcopy' hr =>
      cases Subsingleton.elim x q
      obtain ⟨rfl, hp, herase⟩ := delivered_alone hone hm
      have hrs : r = s := Option.some.inj (hcopy.retry.symm.trans hcopy'.retry)
      subst hrs
      rw [if_neg (by simp [hok]), if_neg (by omega)] at hrest
      refine .live (y.republished (r + 1)) (r + 1) fuel (hcopy.republished _) ?_ ?_ ?_ ?_
      · omega
      · omega
      · simp [herase, hp]
      · simpa using hrest
    | @republished i y hm =>
      obtain ⟨rfl, hq, herase⟩ := republished_alone hone hm
      rw [← solo_copy hcopy] at hrest
      refine .live y r (fuel + 1) hcopy hfuel hpos ?_ hrest
      simp [toAll, hq, herase]

theorem lone_of_subsingleton (hQ : Subsingleton Q) {e : Event} {ω : Outcomes Q} (q : Q)
    {acts : List (Delivery Q)} {d : Fanout Q}
    (hrun : exec (fanoutStep e ω) (.start e) acts = some d) : d.Lone e (ω q) q := by
  have hstart : (Fanout.start e : Fanout Q).Lone e (ω q) q :=
    .live (publish e) 0 maxRetries.toNat (copyOf_publish e) (by decide) (by decide) rfl rfl
  exact exec_fanned (fun d => d.Lone e (ω q) q) (fun _ _ _ hu hs => hs.lone hQ hu) hstart hrun

theorem isolated_of_subsingleton (hQ : Subsingleton Q) {e : Event} {ω : Outcomes Q}
    {acts : List (Delivery Q)} {d : Fanout Q}
    (hrun : exec (fanoutStep e ω) (.start e) acts = some d) (hdone : d.Complete) :
    Isolated e ω d := by
  intro q
  cases lone_of_subsingleton hQ q hrun with
  | live m r fuel hcopy hfuel hpos hone hrest =>
    rw [hdone.1 q, hdone.2] at hone
    cases hone
  | spent hnone hall => exact hall

/-- The message is a copy for the second attempt. -/
def Message.second (m : Message) : Bool := m.retry = some 1

/-- The queue failed on the first message it saw, and that was the original. -/
def Fanout.failedFirst (ω : Outcomes Q) (d : Fanout Q) (q : Q) : Nat :=
  if ω q 0 = false ∧ ∃ m, (d.seen q).head? = some m ∧ m.retry = some 0 then 1 else 0

/-- Copies for the second attempt that the queue has seen or will see. -/
def Fanout.seconds (d : Fanout Q) (x : Q) : Nat :=
  (d.seen x).countP Message.second + (d.queues x).countP Message.second +
    d.pending.countP Message.second

/-- Delivering a message only moves it. -/
theorem seconds_take {d : Fanout Q} {q : Q} {i : Nat} {m : Message}
    (hm : (d.queues q)[i]? = some m) (x : Q) :
    ((d.take q i m).seen x).countP Message.second +
        ((d.take q i m).queues x).countP Message.second =
      (d.seen x).countP Message.second + (d.queues x).countP Message.second := by
  by_cases hx : x = q
  · subst hx
    have herase := countP_eraseIdx hm Message.second
    rw [d.take_seen_self, d.take_queues_self, List.countP_append, List.countP_singleton]
    omega
  · rw [d.take_seen_of_ne q i m hx, d.take_queues_of_ne q i m hx]

/-- Only a delivery of the original to a queue that fails at once counts anew. -/
theorem failedFirst_take {ω : Outcomes Q} {d d' : Fanout Q} {q : Q} {i : Nat} {m : Message}
    (hseen : d'.seen = (d.take q i m).seen) (p : Q) :
    d'.failedFirst ω p = d.failedFirst ω p ∨
      (p = q ∧ d'.failedFirst ω p = 1 ∧ d.failedFirst ω p = 0 ∧
        ω q (d.seen q).length = false ∧ m.retry = some 0) := by
  unfold Fanout.failedFirst
  rw [hseen]
  by_cases hp : p = q
  · subst hp
    rw [d.take_seen_self]
    cases hs : d.seen p with
    | cons y ys => exact .inl rfl
    | nil =>
      by_cases hfail : ω p 0 = false ∧ m.retry = some 0
      · exact .inr ⟨rfl, by simp [hfail], by simp, by simpa using hfail.1, hfail.2⟩
      · left
        simp [hfail]
  · left
    rw [d.take_seen_of_ne q i m hp]

/-- A queue that fails on the original has asked for a copy. -/
theorem seconds_pending {e : Event} {m : Message} {r : Int} (hcopy : m.CopyOf e r)
    (hzero : m.retry = some 0) (pending : List Message) :
    (pending ++ [m.republished (r + 1)]).countP Message.second =
      pending.countP Message.second + 1 := by
  have hr0 : r = 0 := Option.some.inj (hcopy.retry.symm.trans hzero)
  subst hr0
  rw [List.countP_append, List.countP_singleton]
  simp [Message.second]

theorem failed_le_seconds {e : Event} {ω : Outcomes Q} {p q : Q} (hpq : p ≠ q) {u : Fanout Q}
    {y x : Q}
    {i : Nat} {m : Message} {r : Int} (hux : u.failedFirst ω p + u.failedFirst ω q ≤ u.seconds x)
    (hm : (u.queues y)[i]? = some m) (hcopy : m.CopyOf e r) :
    Fanout.failedFirst ω { u.take y i m with pending := u.pending ++ [m.republished (r + 1)] } p +
        Fanout.failedFirst ω
          { u.take y i m with pending := u.pending ++ [m.republished (r + 1)] } q ≤
      Fanout.seconds { u.take y i m with pending := u.pending ++ [m.republished (r + 1)] } x := by
  unfold Fanout.seconds at hux ⊢
  have hmoved := seconds_take hm x
  have hseen : Fanout.seen { u.take y i m with pending := u.pending ++ [m.republished (r + 1)] } =
      (u.take y i m).seen := rfl
  have hmore : u.pending.countP Message.second ≤
      (u.pending ++ [m.republished (r + 1)]).countP Message.second := by
    rw [List.countP_append]
    omega
  change _ + _ ≤ ((u.take y i m).seen x).countP Message.second +
    ((u.take y i m).queues x).countP Message.second +
      (u.pending ++ [m.republished (r + 1)]).countP Message.second
  rcases failedFirst_take (ω := ω) hseen p with hp | ⟨hpy, hp1, hp0, -, hzero⟩ <;>
    rcases failedFirst_take (ω := ω) hseen q with hq | ⟨hqy, hq1, hq0, -, hzero'⟩
  · omega
  · have hone := seconds_pending hcopy hzero' u.pending
    omega
  · have hone := seconds_pending hcopy hzero u.pending
    omega
  · exact absurd (hpy.trans hqy.symm) hpq

/-- A delivery that asks for no copy is not the first failure of a queue. -/
theorem taken_le_seconds {ω : Outcomes Q} {p q : Q} {u v : Fanout Q} {y x : Q} {i : Nat}
    {m : Message}
    (hux : u.failedFirst ω p + u.failedFirst ω q ≤ u.seconds x) (hm : (u.queues y)[i]? = some m)
    (hqueues : v.queues = (u.take y i m).queues) (hseen : v.seen = (u.take y i m).seen)
    (hpending : v.pending = u.pending)
    (hnot : ω y (u.seen y).length = true ∨ m.retry ≠ some 0) :
    v.failedFirst ω p + v.failedFirst ω q ≤ v.seconds x := by
  have hmoved := seconds_take hm x
  have hkeep : ∀ z, v.failedFirst ω z = u.failedFirst ω z := by
    intro z
    refine (failedFirst_take hseen z).resolve_right ?_
    rintro ⟨-, -, -, hno, hzero⟩
    rcases hnot with hok | hretry
    · rw [hok] at hno
      cases hno
    · exact hretry hzero
  unfold Fanout.seconds at hux ⊢
  rw [hkeep, hkeep, hqueues, hseen, hpending]
  omega

theorem Fanned.le_seconds {e : Event} {ω : Outcomes Q} {p q : Q} (hpq : p ≠ q) {u v : Fanout Q}
    {x : Q}
    (hux : u.failedFirst ω p + u.failedFirst ω q ≤ u.seconds x) (hs : Fanned e ω u v) :
    v.failedFirst ω p + v.failedFirst ω q ≤ v.seconds x := by
  cases hs with
  | acked hm hok => exact taken_le_seconds hux hm rfl rfl rfl (.inl hok)
  | @rejected y i m r hm hok hcopy hr =>
    refine taken_le_seconds hux hm rfl rfl rfl (.inr fun hzero => ?_)
    have hr0 : r = 0 := Option.some.inj (hcopy.retry.symm.trans hzero)
    rw [hr0] at hr
    exact absurd hr (by decide)
  | failed hm hok hcopy hr => exact failed_le_seconds hpq hux hm hcopy
  | @republished i m hm =>
    have herase := countP_eraseIdx hm Message.second
    have hsame : ∀ z, (toAll { u with pending := u.pending.eraseIdx i } m).failedFirst ω z =
        u.failedFirst ω z := fun z => rfl
    unfold Fanout.seconds at hux ⊢
    rw [hsame, hsame]
    simp only [toAll, List.countP_append, List.countP_singleton]
    omega

/-- A queue that fails on the original sends every queue a copy. -/
theorem failedFirst_le_seconds {e : Event} {ω : Outcomes Q} {p q : Q} (hpq : p ≠ q)
    {acts : List (Delivery Q)} {d : Fanout Q}
    (hrun : exec (fanoutStep e ω) (.start e) acts = some d) :
    ∀ x, d.failedFirst ω p + d.failedFirst ω q ≤ d.seconds x := by
  refine exec_fanned (fun d => ∀ x, d.failedFirst ω p + d.failedFirst ω q ≤ d.seconds x)
    (fun _ _ _ hu hs x => hs.le_seconds hpq (hu x)) (fun x => ?_) hrun
  simp [Fanout.failedFirst, Fanout.start, toAll]

theorem solo_retry {e : Event} {outcomes : Nat → Bool} (fuel k : Nat) {m : Message} {r : Int}
    (h : m.CopyOf e r) : ∀ y ∈ (solo e outcomes fuel k m).1, ∃ s ≥ r, y.retry = some s := by
  induction fuel generalizing k m r with
  | zero => intro y hy; cases hy
  | succ fuel ih =>
    intro y hy
    rw [solo_copy h] at hy
    split_ifs at hy
    · rw [List.mem_singleton.mp hy]
      exact ⟨r, Int.le_refl r, h.retry⟩
    · rw [List.mem_singleton.mp hy]
      exact ⟨r, Int.le_refl r, h.retry⟩
    · rcases List.mem_cons.mp hy with rfl | hrest
      · exact ⟨r, Int.le_refl r, h.retry⟩
      · obtain ⟨s, hs, hys⟩ := ih (k + 1) (h.republished (r + 1)) y hrest
        exact ⟨s, by omega, hys⟩

/-- Alone, a queue sees the original first and at most one copy for the second attempt. -/
theorem solo_seconds (e : Event) (outcomes : Nat → Bool) :
    (solo e outcomes maxRetries.toNat 0 (publish e)).1.head? = some (publish e) ∧
      (solo e outcomes maxRetries.toNat 0 (publish e)).1.countP Message.second ≤ 1 := by
  have hnone : ∀ fuel k (m : Message) (r : Int), m.CopyOf e r → 2 ≤ r →
      (solo e outcomes fuel k m).1.countP Message.second = 0 := by
    intro fuel k m r hcopy hr
    apply List.countP_eq_zero.mpr
    intro y hy hsecond
    obtain ⟨s, hs, hys⟩ := solo_retry fuel k hcopy y hy
    have hone : y.retry = some 1 := of_decide_eq_true hsecond
    have hs1 : s = 1 := Option.some.inj (hys.symm.trans hone)
    omega
  have horiginal : (publish e).second = false := by
    simp [Message.second, retry_publish]
  have hfirst := copyOf_publish e
  have hsecond := hfirst.republished 1
  change (solo e outcomes (2 + 1) 0 (publish e)).1.head? = _ ∧
    (solo e outcomes (2 + 1) 0 (publish e)).1.countP Message.second ≤ 1
  rw [solo_copy hfirst]
  by_cases h0 : outcomes 0 = true
  · rw [if_pos h0]
    exact ⟨rfl, by simp [horiginal]⟩
  · have hlow : ¬ (0 : Int) + 1 ≥ maxRetries := by decide
    rw [if_neg h0, if_neg hlow]
    refine ⟨rfl, ?_⟩
    have hrest : (solo e outcomes 2 1 ((publish e).republished (0 + 1))).1.countP Message.second
        ≤ 1 := by
      change (solo e outcomes (1 + 1) 1 ((publish e).republished 1)).1.countP Message.second ≤ 1
      rw [solo_copy hsecond]
      by_cases h1 : outcomes 1 = true
      · rw [if_pos h1]
        exact List.countP_le_length
      · have hlow' : ¬ (1 : Int) + 1 ≥ maxRetries := by decide
        rw [if_neg h1, if_neg hlow', List.countP_cons,
          hnone 1 2 _ 2 (hsecond.republished (1 + 1)) (by omega)]
        split_ifs <;> omega
    rw [List.countP_cons, horiginal]
    simpa using hrest

theorem succeeds_of_isolated {e : Event} {ω : Outcomes Q} {acts : List (Delivery Q)} {d : Fanout Q}
    (hrun : exec (fanoutStep e ω) (.start e) acts = some d) (hdone : d.Complete)
    (hiso : Isolated e ω d) {p q : Q} (hpq : p ≠ q) : ω p 0 = true := by
  by_contra hp
  have hseen : ∀ x, d.seen x = (solo e (ω x) maxRetries.toNat 0 (publish e)).1 :=
    fun x => congrArg Prod.fst (hiso x)
  have hfails : ∀ x, ω x 0 = false → d.failedFirst ω x = 1 := by
    intro x hx
    have hhead := (solo_seconds e (ω x)).1
    exact if_pos ⟨hx, publish e, by rw [hseen x, hhead], retry_publish e⟩
  have hle := failedFirst_le_seconds hpq hrun
  have hcount : ∀ x, d.seconds x = (d.seen x).countP Message.second := by
    intro x
    simp [Fanout.seconds, hdone.1 x, hdone.2]
  have hpf : d.failedFirst ω p = 1 := hfails p (by simpa using hp)
  have hqfail : ω q 0 = false := by
    by_contra hq
    have hone : d.seen q = [publish e] := by
      rw [hseen q, solo_succeeds (by simpa using hq)]
    have hq0 : d.seconds q = 0 := by
      rw [hcount, hone]
      simp [Message.second, retry_publish]
    have := hle q
    omega
  have hqf := hfails q hqfail
  have htwo := hle p
  have hmost := (solo_seconds e (ω p)).2
  rw [hcount, hseen p] at htwo
  omega

/-- `StockReserved` is bound by the order service (`false`) and by shipping (`true`). -/
def stockReserved : Event := Event.create (.stockReserved 1 [⟨7, 2⟩]) "2026-01-01T00:00:00Z" none

def orderFailsOnce : Outcomes Bool := fun q k => q || k ≠ 0

/-- Shipping handles the event twice although its handler succeeds at once. -/
theorem retry_reaches_other_queue :
    ∃ d, exec (fanoutStep stockReserved orderFailsOnce) (.start stockReserved)
        [.deliver false 0, .deliver true 0, .republish 0, .deliver false 0, .deliver true 0] =
          some d ∧
      d.Complete ∧ orderFailsOnce true 0 = true ∧
      d.seen true = [publish stockReserved, (publish stockReserved).republished 1] ∧
      ¬ Isolated stockReserved orderFailsOnce d := by
  refine ⟨_, rfl, ⟨by decide, rfl⟩, rfl, rfl, ?_⟩
  intro h
  have hseen := congrArg (fun pair => pair.1.length) (h true)
  rw [solo_succeeds rfl] at hseen
  exact absurd hseen (by decide)

/-- A complete run isolates the queues exactly when there is only one, or no first
attempt fails. -/
theorem isolated_iff (e : Event) (ω : Outcomes Q) (acts : List (Delivery Q)) (d : Fanout Q)
    (hrun : exec (fanoutStep e ω) (.start e) acts = some d) (hdone : d.Complete) :
    Isolated e ω d ↔ Subsingleton Q ∨ ∀ q, ω q 0 = true := by
  constructor
  · intro hiso
    by_cases hQ : Subsingleton Q
    · exact .inl hQ
    · right
      intro p
      obtain ⟨q, hq⟩ : ∃ q, q ≠ p := by
        by_contra hno
        push Not at hno
        exact hQ ⟨fun a b => (hno a).trans (hno b).symm⟩
      exact succeeds_of_isolated hrun hdone hiso (Ne.symm hq)
  · rintro (hQ | hω)
    · exact isolated_of_subsingleton hQ hrun hdone
    · exact isolated_of_succeeds hω hrun hdone

theorem isolated_iff_orderFailsOnce :
    ∃ d : Fanout Bool, d.Complete ∧ (Isolated stockReserved orderFailsOnce d ↔
      Subsingleton Bool ∨ ∀ q, orderFailsOnce q 0 = true) := by
  refine ⟨_, ?_, isolated_iff stockReserved orderFailsOnce
    [.deliver false 0, .deliver true 0, .republish 0, .deliver true 0, .deliver false 0] _ rfl ?_⟩
  · exact ⟨by decide, rfl⟩
  · exact ⟨by decide, rfl⟩

end OrderMesh
