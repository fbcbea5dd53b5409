import Mathlib
import OrderMesh.Shared.Events.Handle

namespace OrderMesh

variable {B V E : Type}

/-- The queues, the messages the handler was run on, and those acknowledged. -/
structure Attempts (B V : Type) where
  queues : Queues B V
  runs : List (Incoming B V)
  acked : List (Incoming B V)

def Operation.isAck : Operation B V → Bool
  | .ack => true
  | _ => false

variable (w : Wire B V E) (c : Consumer)

/-- Whether `_handle` comes to run a handler on the message. -/
def runsHandler (m : Incoming B V) : Bool :=
  match m.retry w, w.validate m.body with
  | some _, some e => w.eventType e ∈ c.eventTypes
  | _, _ => false

/-- Deliver the next message; `outcomes k` says whether the handler succeeds at its `k`-th run. -/
def attempt (limit : Int) (outcomes : Nat → Bool) (d : Attempts B V) : Option (Attempts B V) :=
  match d.queues.ready with
  | [] => none
  | m :: rest =>
      let h := handle w c limit m (if outcomes d.runs.length then .returns else .raises)
      some {
        queues := { d.queues with ready := rest }.after c m h
        runs := d.runs ++ if runsHandler w c m then [m] else []
        acked := d.acked ++ if h.operations.any Operation.isAck then [m] else [] }

/-- At most `fuel` deliveries; fewer when the queue runs empty. -/
def attempts (limit : Int) (outcomes : Nat → Bool) : Nat → Attempts B V → Attempts B V
  | 0, d => d
  | fuel + 1, d =>
      match attempt w c limit outcomes d with
      | none => d
      | some d' => attempts limit outcomes fuel d'

def Attempts.start (m : Incoming B V) : Attempts B V := ⟨⟨[m], []⟩, [], []⟩

/-- The position of the first success, counted from one. -/
noncomputable def firstSuccess (outcomes : Nat → Bool) : ℕ∞ :=
  ⨅ (i : Nat) (_ : outcomes i = true), ((i + 1 : Nat) : ℕ∞)

/-- How often a message that starts at `r` may be tried. -/
def allowed (limit r : Int) : Nat := (max 1 (limit - r)).toNat

/-- Every copy that a failure below the limit asks for can be published. -/
def Publishable (limit r : Int) (outcomes : Nat → Bool) : Prop :=
  ∀ i : Nat, (∀ j ≤ i, outcomes j = false) → r + (i + 1) < limit → InHeader (r + (i + 1))

/-- The message was tried until the first success or as often as allowed, and is then
acknowledged or dead-lettered. -/
structure RetryLaw (limit : Int) (m : Incoming B V) (r : Int) (outcomes : Nat → Bool)
    (d : Attempts B V) : Prop where
  empty : d.queues.ready = []
  runs : (d.runs.length : ℕ∞) = min (firstSuccess outcomes) (allowed limit r)
  copies : ∀ (i : Nat) y, d.runs[i]? = some y → m.CopyOf w (r + i) y
  acked : firstSuccess outcomes ≤ allowed limit r → d.acked = d.runs ∧ d.queues.dead = []
  dead : ¬ firstSuccess outcomes ≤ allowed limit r →
    ∃ y, d.queues.dead = [y] ∧ d.runs = d.acked ++ [y]

theorem firstSuccess_eq {outcomes : Nat → Bool} {j : Nat} (hj : outcomes j = true)
    (hmin : ∀ i < j, outcomes i = false) : firstSuccess outcomes = (j + 1 : Nat) := by
  apply le_antisymm
  · exact iInf₂_le j hj
  · refine le_iInf₂ fun i hi => ?_
    have hle : j ≤ i := by
      by_contra hlt
      rw [hmin i (by omega)] at hi
      cases hi
    exact_mod_cast Nat.succ_le_succ hle

theorem lt_firstSuccess {outcomes : Nat → Bool} {n : Nat} (h : ∀ i < n, outcomes i = false) :
    (n : ℕ∞) < firstSuccess outcomes := by
  have hle : ((n + 1 : Nat) : ℕ∞) ≤ firstSuccess outcomes := by
    refine le_iInf₂ fun i hi => ?_
    have hle : n ≤ i := by
      by_contra hlt
      rw [h i (by omega)] at hi
      cases hi
    exact_mod_cast Nat.succ_le_succ hle
  refine lt_of_lt_of_le ?_ hle
  exact_mod_cast Nat.lt_succ_self n

/-- Among the first `n` outcomes there is a first success, or none. -/
theorem success_cases (outcomes : Nat → Bool) (n : Nat) :
    (∃ j < n, outcomes j = true ∧ ∀ i < j, outcomes i = false) ∨ ∀ i < n, outcomes i = false := by
  induction n with
  | zero => exact .inr fun i hi => absurd hi (Nat.not_lt_zero i)
  | succ n ih =>
    rcases ih with ⟨j, hj, hfirst⟩ | hnone
    · exact .inl ⟨j, by omega, hfirst⟩
    · cases hn : outcomes n with
      | true => exact .inl ⟨n, by omega, hn, hnone⟩
      | false =>
        right
        intro i hi
        rcases Nat.lt_succ_iff_lt_or_eq.mp hi with hlt | rfl
        · exact hnone i hlt
        · exact hn

/-- The copy for attempt `i + 1`, while it can be published. -/
def Incoming.copy (m : Incoming B V) (r : Int) : Nat → Incoming B V
  | 0 => m
  | i + 1 => ((m.copy r i).republished w (r + (i + 1))).getD m

/-- Attempts `1` to `i` have failed and the next copy is in the queue. -/
def Attempts.waiting (m : Incoming B V) (r : Int) (i : Nat) : Attempts B V :=
  ⟨⟨[m.copy w r i], []⟩, (List.range i).map (m.copy w r), (List.range i).map (m.copy w r)⟩

/-- The queue is empty after `i + 1` attempts. -/
def Attempts.over (m : Incoming B V) (r : Int) (i : Nat) (acked dead : List (Incoming B V)) :
    Attempts B V :=
  ⟨⟨[], dead⟩, (List.range (i + 1)).map (m.copy w r), (List.range i).map (m.copy w r) ++ acked⟩

section

variable {w} {c} {m : Incoming B V} {r : Int}

theorem Incoming.republished_copy (m : Incoming B V) {i : Nat} (h : InHeader (r + (i + 1))) :
    (m.copy w r i).republished w (r + (i + 1)) = some (m.copy w r (i + 1)) := by
  obtain ⟨y, hy⟩ := Option.isSome_iff_exists.mp
    (((m.copy w r i).republished_isSome w (r + (i + 1))).mpr h)
  rw [hy, Incoming.copy, hy, Option.getD_some]

theorem Incoming.copyOf_copy (hretry : m.retry w = some r) {i : Nat}
    (h : ∀ k < i, InHeader (r + (k + 1))) : m.CopyOf w (r + i) (m.copy w r i) := by
  induction i with
  | zero => exact ⟨rfl, rfl, rfl, fun _ _ => rfl, by simpa [Incoming.copy] using hretry⟩
  | succ i ih =>
    have hcopy := ih fun k hk => h k (Nat.lt_succ_of_lt hk)
    have hnext := copyOf_republished w (m.republished_copy (w := w) (h i (Nat.lt_succ_self i)))
    exact_mod_cast hcopy.trans w hnext

theorem Incoming.CopyOf.registered {y : Incoming B V} {n : Int} (h : Registered w c m)
    (hy : m.CopyOf w n y) : Registered w c y := by
  unfold Registered
  rw [hy.body]
  exact h

theorem runsHandler_of_registered (hretry : m.retry w = some r) (h : Registered w c m) :
    runsHandler w c m = true := by
  obtain ⟨e, he, htype⟩ := h
  simp [runsHandler, hretry, he, htype]

variable (hretry : m.retry w = some r) (hreg : Registered w c m)
  (hkey : m.routingKey ∈ c.eventTypes) {limit : Int} {outcomes : Nat → Bool} {i : Nat}

include hretry hreg

/-- A delivery of the waiting copy is a run of its handler. -/
theorem attempt_waiting (hsent : ∀ k < i, InHeader (r + (k + 1))) :
    attempt w c limit outcomes (.waiting w m r i) =
      let h := if outcomes i then ⟨true, [.ack], .completed⟩
        else failed w limit (m.copy w r i) (r + i)
      some {
        queues := (⟨[], []⟩ : Queues B V).after c (m.copy w r i) h
        runs := (List.range (i + 1)).map (m.copy w r)
        acked := (List.range i).map (m.copy w r) ++
          if h.operations.any Operation.isAck then [m.copy w r i] else [] } := by
  have hcopyOf := Incoming.copyOf_copy hretry hsent
  have hread : (m.copy w r i).retry w = some (r + i) := hcopyOf.retry
  have hcopy : Registered w c (m.copy w r i) := hcopyOf.registered hreg
  have hhandle : handle w c limit (m.copy w r i) (if outcomes i then .returns else .raises) =
      if outcomes i then ⟨true, [.ack], .completed⟩
        else failed w limit (m.copy w r i) (r + i) := by
    rw [handle_registered hread hcopy]
    cases outcomes i <;> rfl
  have hlen : ((List.range i).map (m.copy w r)).length = i := by simp
  simp only [attempt, Attempts.waiting, hlen, hhandle, runsHandler_of_registered hread hcopy,
    List.range_succ, List.map_append, List.map_singleton, if_true]

theorem attempt_success (hsent : ∀ k < i, InHeader (r + (k + 1))) (hok : outcomes i = true) :
    attempt w c limit outcomes (.waiting w m r i) = some (.over w m r i [m.copy w r i] []) := by
  rw [attempt_waiting hretry hreg hsent, hok]
  rfl

theorem attempt_rejected (hsent : ∀ k < i, InHeader (r + (k + 1))) (hok : outcomes i = false)
    (hlimit : r + i + 1 ≥ limit) :
    attempt w c limit outcomes (.waiting w m r i) = some (.over w m r i [] [m.copy w r i]) := by
  rw [attempt_waiting hretry hreg hsent, hok]
  simp only [Bool.false_eq_true, if_false, failed, if_pos hlimit, after_rejected]
  rfl

include hkey in
theorem attempt_republished (hsent : ∀ k < i + 1, InHeader (r + (k + 1)))
    (hok : outcomes i = false) (hlimit : r + i + 1 < limit) :
    attempt w c limit outcomes (.waiting w m r i) = some (.waiting w m r (i + 1)) := by
  have hcopy := m.republished_copy (w := w) (hsent i (Nat.lt_succ_self i))
  have hbound : (m.copy w r (i + 1)).routingKey ∈ c.eventTypes := by
    rw [(Incoming.copyOf_copy hretry hsent).routingKey]
    exact hkey
  rw [attempt_waiting hretry hreg fun k hk => hsent k (Nat.lt_succ_of_lt hk), hok]
  rcases failed_cases w limit (m.copy w r i) (r + i) with ⟨hreached, -⟩ | ⟨-, hnone, -⟩ |
    ⟨-, -, y, hy, heq⟩
  · omega
  · rw [Int.add_assoc] at hnone
    exact absurd (hsent i (Nat.lt_succ_self i)) hnone
  · rw [Int.add_assoc, hcopy] at hy
    cases hy
    simp only [Bool.false_eq_true, if_false, heq, after_republished, if_pos hbound]
    simp [Attempts.waiting, Operation.isAck, List.range_succ]

theorem attempt_raised (hsent : ∀ k < i, InHeader (r + (k + 1))) (hok : outcomes i = false)
    (hlimit : r + i + 1 < limit) (hheader : ¬ InHeader (r + (i + 1))) :
    attempt w c limit outcomes (.waiting w m r i) = some (.over w m r i [] []) := by
  rw [attempt_waiting hretry hreg hsent, hok]
  rcases failed_cases w limit (m.copy w r i) (r + i) with ⟨hreached, -⟩ | ⟨-, -, heq⟩ |
    ⟨-, hin, -⟩
  · omega
  · simp only [Bool.false_eq_true, if_false, heq]
    rfl
  · rw [Int.add_assoc] at hin
    exact absurd hin hheader

omit hretry hreg

theorem attempts_of_none {d : Attempts B V} (h : attempt w c limit outcomes d = none) (fuel : Nat) :
    attempts w c limit outcomes fuel d = d := by
  cases fuel with
  | zero => rfl
  | succ fuel => rw [attempts, h]

theorem attempts_succ {d d' : Attempts B V} (h : attempt w c limit outcomes d = some d')
    (fuel : Nat) :
    attempts w c limit outcomes (fuel + 1) d = attempts w c limit outcomes fuel d' := by
  rw [attempts, h]

/-- The queue is empty, so later deliveries change nothing. -/
theorem attempts_over (acked dead : List (Incoming B V)) (fuel : Nat) :
    attempts w c limit outcomes fuel (.over w m r i acked dead) = .over w m r i acked dead :=
  attempts_of_none rfl fuel

/-- A delivery that empties the queue is the last one. -/
theorem attempts_last {acked dead : List (Incoming B V)}
    (h : attempt w c limit outcomes (.waiting w m r i) = some (.over w m r i acked dead))
    (fuel : Nat) :
    attempts w c limit outcomes (fuel + 1) (.waiting w m r i) = .over w m r i acked dead := by
  rw [attempts_succ h, attempts_over]

include hretry hreg hkey in
/-- As long as every attempt fails below the limit, the next copy waits. -/
theorem attempts_waiting (hsent : ∀ k < i, InHeader (r + (k + 1)))
    (hfail : ∀ j < i, outcomes j = false) (hlimit : 0 < i → r + i < limit) (fuel : Nat) :
    attempts w c limit outcomes (i + fuel) (.start m) =
      attempts w c limit outcomes fuel (.waiting w m r i) := by
  induction i generalizing fuel with
  | zero => rw [Nat.zero_add]; rfl
  | succ i ih =>
    have htop : r + (i + 1 : Nat) < limit := hlimit (Nat.succ_pos i)
    have hstep : attempt w c limit outcomes (.waiting w m r i) = some (.waiting w m r (i + 1)) :=
      attempt_republished hretry hreg hkey hsent (hfail i (by omega)) (by omega)
    have hrest := ih (fun k hk => hsent k (by omega)) (fun j hj => hfail j (by omega))
      (fun _ => by omega) (fuel + 1)
    rw [show i + 1 + fuel = i + (fuel + 1) by omega, hrest, attempts_succ hstep]

theorem allowed_pos (limit r : Int) : 0 < allowed limit r := by
  unfold allowed
  omega

theorem copyOf_runs (hretry : m.retry w = some r) {n j : Nat} {y : Incoming B V}
    (hsent : ∀ k < n, InHeader (r + (k + 1)))
    (h : ((List.range (n + 1)).map (m.copy w r))[j]? = some y) : m.CopyOf w (r + j) y := by
  rw [List.getElem?_map, Option.map_eq_some_iff] at h
  obtain ⟨x, hx, rfl⟩ := h
  obtain ⟨hlt, rfl⟩ := List.getElem?_eq_some_iff.mp hx
  rw [List.length_range] at hlt
  rw [List.getElem_range]
  exact Incoming.copyOf_copy hretry fun k hk => hsent k (by omega)

theorem retryLaw_success (hretry : m.retry w = some r) (hsent : ∀ k < i, InHeader (r + (k + 1)))
    (hi : i < allowed limit r) (hok : outcomes i = true) (hfail : ∀ j < i, outcomes j = false) :
    RetryLaw w limit m r outcomes (.over w m r i [m.copy w r i] []) := by
  have hfirst : firstSuccess outcomes = (i + 1 : Nat) := firstSuccess_eq hok hfail
  have hle : firstSuccess outcomes ≤ allowed limit r := by
    rw [hfirst]
    exact_mod_cast hi
  have hruns : (List.range i).map (m.copy w r) ++ [m.copy w r i] =
      (List.range (i + 1)).map (m.copy w r) := by
    rw [List.range_succ, List.map_append, List.map_singleton]
  refine ⟨rfl, ?_, fun j y h => copyOf_runs hretry hsent h, fun _ => ⟨hruns, rfl⟩, absurd hle⟩
  rw [min_eq_left hle, hfirst]
  simp [Attempts.over]

theorem retryLaw_dead (hretry : m.retry w = some r) (hsent : ∀ k < i, InHeader (r + (k + 1)))
    (hi : i + 1 = allowed limit r) (hfail : ∀ j < i + 1, outcomes j = false) :
    RetryLaw w limit m r outcomes (.over w m r i [] [m.copy w r i]) := by
  have hlt : (allowed limit r : ℕ∞) < firstSuccess outcomes := by
    rw [← hi]
    exact lt_firstSuccess hfail
  have hruns : (List.range (i + 1)).map (m.copy w r) =
      (List.range i).map (m.copy w r) ++ [m.copy w r i] := by
    rw [List.range_succ, List.map_append, List.map_singleton]
  refine ⟨rfl, ?_, fun j y h => copyOf_runs hretry hsent h, fun hle => absurd hle hlt.not_ge,
    fun _ => ⟨_, rfl, ?_⟩⟩
  · rw [min_eq_right hlt.le, ← hi]
    simp [Attempts.over]
  · simpa [Attempts.over] using hruns

/-- A run that raises over its copy neither acknowledges nor dead-letters the message. -/
theorem not_retryLaw_raised : ¬ RetryLaw w limit m r outcomes (.over w m r i [] []) := by
  intro h
  by_cases hle : firstSuccess outcomes ≤ allowed limit r
  · have hlen := congrArg List.length (h.acked hle).1
    simp [Attempts.over] at hlen
  · obtain ⟨y, hy, -⟩ := h.dead hle
    cases hy

include hretry hreg hkey in
theorem retryLaw_of_publishable (hsent : Publishable limit r outcomes) :
    ∃ n, ∀ fuel ≥ n,
      RetryLaw w limit m r outcomes (attempts w c limit outcomes fuel (.start m)) := by
  have hcap : allowed limit r = (max 1 (limit - r)).toNat := rfl
  have hpos := allowed_pos limit r
  have hcopies : ∀ i, i < allowed limit r → (∀ j < i, outcomes j = false) →
      ∀ k < i, InHeader (r + (k + 1)) :=
    fun i hi hfail k hk => hsent k (fun j hj => hfail j (by omega)) (by omega)
  rcases success_cases outcomes (allowed limit r) with ⟨j, hj, hok, hfail⟩ | hnone
  · have hready := hcopies j hj hfail
    refine ⟨j + 1, fun fuel hfuel => ?_⟩
    obtain ⟨extra, rfl⟩ : ∃ extra, fuel = j + (extra + 1) := ⟨fuel - (j + 1), by omega⟩
    rw [attempts_waiting hretry hreg hkey hready hfail (by omega),
      attempts_last (attempt_success hretry hreg hready hok)]
    exact retryLaw_success hretry hready hj hok hfail
  · obtain ⟨i, hi⟩ : ∃ i, allowed limit r = i + 1 := ⟨allowed limit r - 1, by omega⟩
    rw [hi] at hnone
    have hready := hcopies i (by omega) fun j hj => hnone j (by omega)
    refine ⟨i + 1, fun fuel hfuel => ?_⟩
    obtain ⟨extra, rfl⟩ : ∃ extra, fuel = i + (extra + 1) := ⟨fuel - (i + 1), by omega⟩
    rw [attempts_waiting hretry hreg hkey hready (fun j hj => hnone j (by omega)) (by omega),
      attempts_last (attempt_rejected hretry hreg hready (hnone i (by omega)) (by omega))]
    exact retryLaw_dead hretry hready hi.symm hnone

include hretry hreg hkey in
/-- The first copy that cannot be published ends the attempts. -/
theorem publishable_of_retryLaw {n : Nat}
    (h : ∀ fuel ≥ n, RetryLaw w limit m r outcomes (attempts w c limit outcomes fuel (.start m))) :
    Publishable limit r outcomes := by
  intro i
  induction i using Nat.strong_induction_on with
  | _ i ih =>
    intro hfail hlimit
    by_contra hheader
    have hready : ∀ k < i, InHeader (r + (k + 1)) :=
      fun k hk => ih k hk (fun j hj => hfail j (by omega)) (by omega)
    have hlaw := h (i + (n + 1)) (by omega)
    have hwaiting : attempts w c limit outcomes (i + (n + 1)) (.start m) =
        attempts w c limit outcomes (n + 1) (.waiting w m r i) :=
      attempts_waiting hretry hreg hkey hready (fun j hj => hfail j (by omega))
        (fun _ => by omega) (n + 1)
    have hraised : attempt w c limit outcomes (.waiting w m r i) = some (.over w m r i [] []) :=
      attempt_raised hretry hreg hready (hfail i (Nat.le_refl i)) (by omega) hheader
    rw [hwaiting, attempts_last hraised n] at hlaw
    exact not_retryLaw_raised hlaw

end

/-- No copy leaves the range of a header from above before a success or the limit. -/
theorem publishable_iff {limit r : Int} {outcomes : Nat → Bool} :
    Publishable limit r outcomes ↔ outcomes 0 = true ∨ limit ≤ r + 1 ∨
      -2 ^ 63 ≤ r + 1 ∧ (limit ≤ 2 ^ 63 ∨ ∃ j : Nat, outcomes j = true ∧ r + j < 2 ^ 63) := by
  constructor
  · intro h
    by_cases hfirst : outcomes 0 = true
    · exact .inl hfirst
    · by_cases hlast : limit ≤ r + 1
      · exact .inr (.inl hlast)
      · rw [Bool.not_eq_true] at hfirst
        have hone := h 0 (fun j hj => Nat.le_zero.mp hj ▸ hfirst) (by omega)
        refine .inr (.inr ⟨by simpa using hone.1, ?_⟩)
        by_cases hlimit : limit ≤ 2 ^ 63
        · exact .inl hlimit
        · right
          by_contra hnone
          have hlow := hone.2
          obtain ⟨i, hi⟩ : ∃ i : Nat, r + (i + 1) = 2 ^ 63 := ⟨(2 ^ 63 - 1 - r).toNat, by omega⟩
          have htop := h i (fun j hj => ?_) (by omega)
          · exact absurd htop.2 (by omega)
          · by_contra hsuccess
            exact hnone ⟨j, by simpa using hsuccess, by omega⟩
  · rintro (hfirst | hlast | ⟨hlow, hlimit | ⟨j, hok, hj⟩⟩) i hfail hbelow
    · have hzero := hfail 0 (Nat.zero_le i)
      rw [hfirst] at hzero
      cases hzero
    · omega
    · exact ⟨by omega, by omega⟩
    · refine ⟨by omega, ?_⟩
      by_contra htop
      have hfailed := hfail j (by omega)
      rw [hok] at hfailed
      cases hfailed

/-- One queue alone tries a message until its first success or as often as the limit
allows, exactly when the first attempt succeeds or is the last, or a header holds the `x-retry`
of every copy: of the first one, and of those up to the limit or a success. -/
theorem retryLaw_iff (m : Incoming B V) (r : Int) (limit : Int) (outcomes : Nat → Bool)
    (hretry : m.retry w = some r) (hreg : Registered w c m)
    (hkey : m.routingKey ∈ c.eventTypes) :
    (∃ n, ∀ fuel ≥ n,
        RetryLaw w limit m r outcomes (attempts w c limit outcomes fuel (.start m))) ↔
      outcomes 0 = true ∨ limit ≤ r + 1 ∨
        -2 ^ 63 ≤ r + 1 ∧ (limit ≤ 2 ^ 63 ∨ ∃ j : Nat, outcomes j = true ∧ r + j < 2 ^ 63) := by
  rw [← publishable_iff]
  constructor
  · rintro ⟨n, hlaw⟩
    exact publishable_of_retryLaw hretry hreg hkey hlaw
  · exact retryLaw_of_publishable hretry hreg hkey

/-- An event whose `x-retry` is the decimal text of a number. -/
def countedAs (n : Int) : Incoming Body HeaderValue where
  body := .event reservedOrder
  headers := Dict.empty.set "x-retry" (.text (toString n))
  contentType := some "application/json"
  routingKey := "StockReserved"

theorem retry_countedAs {n : Int} (h : n.natAbs < 10 ^ IntText.maxDigits) :
    (countedAs n).retry eventWire = some n := by
  have hget : (countedAs n).headers.get? "x-retry" = some (.text (toString n)) := by
    rw [countedAs, Dict.get?_set, if_pos rfl]
  unfold Incoming.retry
  rw [hget]
  exact (IntText.int_toString n).trans (if_pos h)

theorem registered_countedAs (n : Int) : Registered eventWire orderEvents (countedAs n) :=
  ⟨reservedOrder, rfl, by decide⟩

theorem lt_maxDigits {n : Nat} (h : n < 10 ^ 20) : n < 10 ^ IntText.maxDigits :=
  Nat.lt_of_lt_of_le h (Nat.pow_le_pow_right (by decide) (by decide))

theorem retryLaw_iff_countedAs :
    (∃ n, ∀ fuel ≥ n, RetryLaw eventWire maxRetries (countedAs (-7)) (-7) (fun k => k = 4)
        (attempts eventWire orderEvents maxRetries (fun k => k = 4) fuel
          (.start (countedAs (-7))))) ↔
      decide (0 = 4) = true ∨ maxRetries ≤ -7 + 1 ∨ -2 ^ 63 ≤ (-7 : Int) + 1 ∧
        (maxRetries ≤ 2 ^ 63 ∨ ∃ j : Nat, decide (j = 4) = true ∧ (-7 : Int) + j < 2 ^ 63) :=
  retryLaw_iff eventWire orderEvents (countedAs (-7)) (-7) maxRetries (fun k => k = 4)
    (retry_countedAs (lt_maxDigits (by decide))) (registered_countedAs (-7)) (by decide)

/-- With a count whose successor no header holds, the first failure leaves the message
neither acknowledged nor dead-lettered. -/
theorem countedAs_not_retried :
    handle eventWire orderEvents maxRetries (countedAs (-2 ^ 63 - 2)) .raises =
        ⟨false, [], .raised⟩ ∧
      ¬ ∃ n, ∀ fuel ≥ n,
        RetryLaw eventWire maxRetries (countedAs (-2 ^ 63 - 2)) (-2 ^ 63 - 2)
          (fun _ => false) (attempts eventWire orderEvents maxRetries (fun _ => false) fuel
            (.start (countedAs (-2 ^ 63 - 2)))) := by
  have hretry : (countedAs (-2 ^ 63 - 2)).retry eventWire = some (-2 ^ 63 - 2) :=
    retry_countedAs (lt_maxDigits (by decide))
  have hreg := registered_countedAs (-2 ^ 63 - 2)
  constructor
  · rw [handle_registered hretry hreg]
    rcases failed_cases eventWire maxRetries (countedAs (-2 ^ 63 - 2)) (-2 ^ 63 - 2) with
      ⟨hreached, -⟩ | ⟨-, -, heq⟩ | ⟨-, hin, -⟩
    · exact absurd hreached (by decide)
    · exact heq
    · exact absurd hin (by decide)
  · rintro ⟨k, hlaw⟩
    have hsent := publishable_of_retryLaw hretry hreg (by decide) hlaw
    exact absurd (hsent 0 (fun _ _ => rfl) (by decide)) (by decide)

end OrderMesh
