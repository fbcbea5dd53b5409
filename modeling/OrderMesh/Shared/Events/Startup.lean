import Mathlib.Data.List.Dedup
import OrderMesh.Library.Dict
import OrderMesh.Library.Setup
import OrderMesh.Shared.Events.Durability

namespace OrderMesh.Startup

open Setup Transition

deriving instance DecidableEq for Binding

/-- What is declared at the broker; a queue is stored with its dead-letter exchange and key. -/
structure Rabbit where
  exchanges : List String
  queues : Dict String (Option (String × String))
  bindings : List Binding

/-- An awaited call of the two functions, as far as the broker keeps something of it. -/
inductive Declaration
  | exchange (name : String)
  | queue (name : String) (deadLetter : Option (String × String))
  | bind (b : Binding)
  | consume (queue : String)
  deriving DecidableEq

/-- A name that is declared with other arguments, or that is not declared, closes the channel. -/
def Rabbit.apply (r : Rabbit) : Declaration → Option Rabbit
  | .exchange name =>
      some { r with exchanges := if name ∈ r.exchanges then r.exchanges else r.exchanges ++ [name] }
  | .queue name deadLetter =>
      match r.queues.get? name with
      | none => some { r with queues := r.queues.set name deadLetter }
      | some declared => if declared = deadLetter then some r else none
  | .bind b =>
      if b.exchange ∈ r.exchanges ∧ (r.queues.get? b.queue).isSome then
        some { r with bindings := if b ∈ r.bindings then r.bindings else r.bindings ++ [b] }
      else none
  | .consume queue => if (r.queues.get? queue).isSome then some r else none

/-- `connect`, whose attempts each begin again from its first exchange, and then `start`. -/
def program (c : Consumer) : List Declaration :=
  .exchange exchangeName :: .exchange dlxName ::
    .queue c.dlqName none :: .bind ⟨dlxName, c.dlqName, c.deadKey⟩ ::
    .queue c.queueName (some (dlxName, c.deadKey)) ::
    (c.eventTypes.map (fun t => .bind ⟨exchangeName, c.queueName, t⟩) ++ [.consume c.queueName])

def Done (r : Rabbit) : Declaration → Prop
  | .exchange name => name ∈ r.exchanges
  | .queue name deadLetter => r.queues.get? name = some deadLetter
  | .bind b => b ∈ r.bindings
  | .consume queue => (r.queues.get? queue).isSome

/-- The services' processes, the events published so far and where copies of them went: in
`deposits` to a queue, in `dead` from the queue that rejected it to another. -/
structure State where
  rabbit : Rabbit
  processes : List (Process Declaration)
  events : List Event
  deposits : List (String × Nat)
  dead : List (String × String × Nat)
  dropped : List (String × Nat)

/-- A step of a process, or what becomes of an event: it is published, a consumer publishes it
again, or rejects its copy. -/
inductive Label
  | process (a : Act)
  | publish (e : Event)
  | republish (n : Nat)
  | reject (queue : String) (n : Nat)

/-- A queue gets one copy however many of its bindings match. -/
def State.deposit (s : State) (n : Nat) (e : Event) : State :=
  let queues := (routed s.rabbit.bindings exchangeName e.eventType).dedup
  { s with deposits := s.deposits ++ queues.map fun q => (q, n) }

/-- A rejected copy goes where the arguments of its queue say, or it is lost. -/
def State.deadLetter (s : State) (queue : String) (n : Nat) : State :=
  match s.rabbit.queues.get? queue with
  | some (some (exchange, key)) =>
      match (routed s.rabbit.bindings exchange key).dedup with
      | [] => { s with dropped := s.dropped ++ [(queue, n)] }
      | queues => { s with dead := s.dead ++ queues.map fun q => (queue, q, n) }
  | _ => { s with dropped := s.dropped ++ [(queue, n)] }

theorem done_apply (r : Rabbit) (o : Declaration) (t : Rabbit) (h : r.apply o = some t) :
    Done t o := by
  cases o with
  | exchange name =>
    cases h
    simp only [Done]
    split_ifs with hmem
    · exact hmem
    · simp
  | queue name deadLetter =>
    simp only [Rabbit.apply] at h
    split at h
    · cases h
      simp [Done]
    · rename_i declared hdeclared
      split_ifs at h with heq
      cases h
      rw [Done, hdeclared, heq]
  | bind b =>
    simp only [Rabbit.apply] at h
    split_ifs at h with hdeclared hmem
    · cases h
      exact hmem
    · cases h
      simp [Done]
  | consume queue =>
    simp only [Rabbit.apply] at h
    split_ifs at h with hqueue
    cases h
    exact hqueue

/-- Everything that was declared is still declared. -/
structure Extends (r t : Rabbit) : Prop where
  exchanges : ∀ name ∈ r.exchanges, name ∈ t.exchanges
  queues : ∀ name deadLetter, r.queues.get? name = some deadLetter →
    t.queues.get? name = some deadLetter
  bindings : ∀ b ∈ r.bindings, b ∈ t.bindings

theorem extends_refl (r : Rabbit) : Extends r r := ⟨fun _ h => h, fun _ _ h => h, fun _ h => h⟩

theorem extends_apply {r t : Rabbit} {o : Declaration} (h : r.apply o = some t) : Extends r t := by
  cases o with
  | exchange name =>
    cases h
    refine ⟨fun name' h => ?_, fun _ _ h => h, fun _ h => h⟩
    dsimp only
    split_ifs
    · exact h
    · exact List.mem_append_left _ h
  | queue name deadLetter =>
    simp only [Rabbit.apply] at h
    split at h
    · rename_i hnone
      cases h
      refine ⟨fun _ h => h, fun name' declared h => ?_, fun _ h => h⟩
      have hne : name' ≠ name := by
        intro heq
        rw [heq, hnone] at h
        cases h
      simp [hne, h]
    · split_ifs at h
      cases h
      exact extends_refl r
  | bind b =>
    simp only [Rabbit.apply] at h
    split_ifs at h with hdeclared hmem
    · cases h
      exact extends_refl r
    · cases h
      exact ⟨fun _ h => h, fun _ _ h => h, fun _ h => List.mem_append_left _ h⟩
  | consume queue =>
    simp only [Rabbit.apply] at h
    split_ifs at h
    cases h
    exact extends_refl r

theorem Extends.done {r t : Rabbit} (h : Extends r t) (o : Declaration) (ho : Done r o) :
    Done t o := by
  cases o with
  | exchange name => exact h.exchanges name ho
  | queue name deadLetter => exact h.queues name deadLetter ho
  | bind b => exact h.bindings b ho
  | consume queue =>
    obtain ⟨deadLetter, hqueue⟩ := Option.isSome_iff_exists.mp ho
    rw [Done, h.queues queue deadLetter hqueue]
    rfl

def declarations : Declarations Rabbit Declaration where
  apply := Rabbit.apply
  Done := Done
  done_apply := done_apply
  done_mono _ _ _ h o' ho' := (extends_apply h).done o' ho'

def step (cs : List Consumer) (s : State) : Label → Option State
  | .process a =>
      (Setup.step declarations (cs.map program) s.rabbit s.processes a).map fun r =>
        { s with rabbit := r.1, processes := r.2 }
  | .publish e =>
      if exchangeName ∈ s.rabbit.exchanges then
        some ({ s with events := s.events ++ [e] }.deposit s.events.length e)
      else none
  | .republish n => s.events[n]?.map fun e => s.deposit n e
  | .reject queue n => if (queue, n) ∈ s.deposits then some (s.deadLetter queue n) else none

/-- A broker without anything, and no service is running. -/
def start (cs : List Consumer) : State :=
  ⟨⟨[], .empty, []⟩, List.replicate cs.length none, [], [], [], []⟩

/-- Consumers of one queue are alike, and no queue has the name of a dead-letter queue. -/
structure WellNamed (cs : List Consumer) : Prop where
  queues : ∀ c ∈ cs, ∀ c' ∈ cs, c.queueName = c'.queueName → c = c'
  apart : ∀ c ∈ cs, ∀ c' ∈ cs, c.queueName ≠ c'.dlqName

/-- The next declaration of a consumer, with those before it that it needs. -/
inductive Next (c : Consumer) (made : List Declaration) : Declaration → Prop
  | exchange : Next c made (.exchange exchangeName)
  | dlx : Next c made (.exchange dlxName)
  | dlq : Next c made (.queue c.dlqName none)
  | bindDlq (hexchange : .exchange dlxName ∈ made) (hqueue : .queue c.dlqName none ∈ made) :
      Next c made (.bind ⟨dlxName, c.dlqName, c.deadKey⟩)
  | queue (hdlq : .queue c.dlqName none ∈ made)
      (hbound : .bind ⟨dlxName, c.dlqName, c.deadKey⟩ ∈ made) :
      Next c made (.queue c.queueName (some (dlxName, c.deadKey)))
  | bind {t : String} (ht : t ∈ c.eventTypes) (hexchange : .exchange exchangeName ∈ made)
      (hqueue : .queue c.queueName (some (dlxName, c.deadKey)) ∈ made) :
      Next c made (.bind ⟨exchangeName, c.queueName, t⟩)
  | consume (hqueue : .queue c.queueName (some (dlxName, c.deadKey)) ∈ made) :
      Next c made (.consume c.queueName)

theorem next_of_program {c : Consumer} {made rest : List Declaration} {o : Declaration}
    (h : program c = made ++ o :: rest) : Next c made o := by
  unfold program at h
  rcases List.cons_eq_append_iff.mp h with hnil | ⟨made₁, rfl, h₁⟩
  · cases hnil.2
    exact .exchange
  rcases List.cons_eq_append_iff.mp h₁ with hnil | ⟨made₂, rfl, h₂⟩
  · cases hnil.2
    exact .dlx
  rcases List.cons_eq_append_iff.mp h₂ with hnil | ⟨made₃, rfl, h₃⟩
  · cases hnil.2
    exact .dlq
  rcases List.cons_eq_append_iff.mp h₃ with hnil | ⟨made₄, rfl, h₄⟩
  · cases hnil.2
    exact .bindDlq (by simp) (by simp)
  rcases List.cons_eq_append_iff.mp h₄ with hnil | ⟨made₅, rfl, h₅⟩
  · cases hnil.2
    exact .queue (by simp) (by simp)
  have hmem : o ∈ c.eventTypes.map (fun t => Declaration.bind ⟨exchangeName, c.queueName, t⟩) ++
      [.consume c.queueName] := by
    rw [h₅]
    simp
  rcases List.mem_append.mp hmem with hbind | hconsume
  · obtain ⟨t, ht, rfl⟩ := List.mem_map.mp hbind
    exact .bind ht (by simp) (by simp)
  · rw [List.mem_singleton.mp hconsume]
    exact .consume (by simp)

/-- Everything declared belongs to one of the consumers, and no queue is without its
dead-letter queue. -/
structure Sound (cs : List Consumer) (r : Rabbit) : Prop where
  queues : ∀ name deadLetter, r.queues.get? name = some deadLetter → ∃ c ∈ cs,
    name = c.dlqName ∧ deadLetter = none ∨
      name = c.queueName ∧ deadLetter = some (dlxName, c.deadKey) ∧
        r.queues.get? c.dlqName = some none ∧
        ⟨dlxName, c.dlqName, c.deadKey⟩ ∈ r.bindings
  bindings : ∀ b ∈ r.bindings, ∃ c ∈ cs, b ∈ c.bindings
  bound : ∀ b ∈ r.bindings, (r.queues.get? b.queue).isSome

section

variable {cs : List Consumer} {r t : Rabbit} {c : Consumer} {made : List Declaration}
  {o : Declaration}

/-- Under distinct names nothing that a consumer declares is refused. -/
theorem accepted (hnamed : WellNamed cs) (hr : Sound cs r) (hc : c ∈ cs) (hnext : Next c made o)
    (hmade : ∀ o' ∈ made, Done r o') : r.apply o ≠ none := by
  cases hnext with
  | exchange => exact Option.some_ne_none _
  | dlx => exact Option.some_ne_none _
  | dlq =>
    simp only [Rabbit.apply]
    split
    · exact Option.some_ne_none _
    · rename_i deadLetter hdeclared
      obtain ⟨c', hc', hdlq | hqueue⟩ := hr.queues _ _ hdeclared
      · rw [if_pos hdlq.2]
        exact Option.some_ne_none _
      · exact absurd hqueue.1.symm (hnamed.apart c' hc' c hc)
  | bindDlq hexchange hqueue =>
    have hqueue' : r.queues.get? c.dlqName = some none := hmade _ hqueue
    have hif : dlxName ∈ r.exchanges ∧ (r.queues.get? c.dlqName).isSome := by
      rw [hqueue']
      exact ⟨hmade _ hexchange, rfl⟩
    simp only [Rabbit.apply, if_pos hif]
    exact Option.some_ne_none _
  | queue hdlq hbound =>
    simp only [Rabbit.apply]
    split
    · exact Option.some_ne_none _
    · rename_i deadLetter hdeclared
      obtain ⟨c', hc', hdlq' | hqueue⟩ := hr.queues _ _ hdeclared
      · exact absurd hdlq'.1 (hnamed.apart c hc c' hc')
      · rw [hnamed.queues c hc c' hc' hqueue.1, if_pos hqueue.2.1]
        exact Option.some_ne_none _
  | bind ht hexchange hqueue =>
    have hqueue' : r.queues.get? c.queueName = some (some (dlxName, c.deadKey)) := hmade _ hqueue
    have hif : exchangeName ∈ r.exchanges ∧ (r.queues.get? c.queueName).isSome := by
      rw [hqueue']
      exact ⟨hmade _ hexchange, rfl⟩
    simp only [Rabbit.apply, if_pos hif]
    exact Option.some_ne_none _
  | consume hqueue =>
    have hqueue' : r.queues.get? c.queueName = some (some (dlxName, c.deadKey)) := hmade _ hqueue
    simp [Rabbit.apply, hqueue']

/-- A queue or binding that a declaration adds is its own. -/
theorem sound_of_extends (hr : Sound cs r) (hext : Extends r t)
    (hqueue : ∀ name deadLetter, t.queues.get? name = some deadLetter →
      r.queues.get? name = some deadLetter ∨ ∃ c ∈ cs,
        name = c.dlqName ∧ deadLetter = none ∨
          name = c.queueName ∧ deadLetter = some (dlxName, c.deadKey) ∧
            r.queues.get? c.dlqName = some none ∧ ⟨dlxName, c.dlqName, c.deadKey⟩ ∈ r.bindings)
    (hbinding : ∀ b ∈ t.bindings, b ∈ r.bindings ∨
      (∃ c ∈ cs, b ∈ c.bindings) ∧ (r.queues.get? b.queue).isSome) : Sound cs t := by
  refine ⟨fun name deadLetter h => ?_, fun b hb => ?_, fun b hb => ?_⟩
  · have hfound := (hqueue name deadLetter h).elim (hr.queues name deadLetter) id
    obtain ⟨c, hc, hdlq | ⟨hname, hargs, hdlq, hbound⟩⟩ := hfound
    · exact ⟨c, hc, .inl hdlq⟩
    · exact ⟨c, hc, .inr ⟨hname, hargs, hext.queues _ _ hdlq, hext.bindings _ hbound⟩⟩
  · exact (hbinding b hb).elim (hr.bindings b) And.left
  · have hqueue' := (hbinding b hb).elim (hr.bound b) And.right
    obtain ⟨deadLetter, hget⟩ := Option.isSome_iff_exists.mp hqueue'
    rw [hext.queues _ _ hget]
    rfl

theorem sound_apply (hr : Sound cs r) (hc : c ∈ cs) (hnext : Next c made o)
    (hmade : ∀ o' ∈ made, Done r o') (h : r.apply o = some t) : Sound cs t := by
  have hext := extends_apply h
  cases hnext with
  | exchange =>
    cases h
    exact sound_of_extends hr hext (fun _ _ h => .inl h) (fun _ h => .inl h)
  | dlx =>
    cases h
    exact sound_of_extends hr hext (fun _ _ h => .inl h) (fun _ h => .inl h)
  | dlq =>
    simp only [Rabbit.apply] at h
    split at h
    · cases h
      refine sound_of_extends hr hext (fun name deadLetter hget => ?_) (fun _ h => .inl h)
      rw [Dict.get?_set] at hget
      split_ifs at hget with hname
      · exact .inr ⟨c, hc, .inl ⟨hname, (Option.some.inj hget).symm⟩⟩
      · exact .inl hget
    · split_ifs at h
      cases h
      exact hr
  | bindDlq hexchange hqueue =>
    simp only [Rabbit.apply] at h
    split_ifs at h with hdeclared hmem
    · cases h
      exact hr
    · cases h
      refine sound_of_extends hr hext (fun _ _ h => .inl h) (fun b hb => ?_)
      rcases List.mem_append.mp hb with hold | hnew
      · exact .inl hold
      · rw [List.mem_singleton.mp hnew]
        exact .inr ⟨⟨c, hc, List.mem_cons_self⟩, hdeclared.2⟩
  | queue hdlq hbound =>
    simp only [Rabbit.apply] at h
    split at h
    · cases h
      refine sound_of_extends hr hext (fun name deadLetter hget => ?_) (fun _ h => .inl h)
      rw [Dict.get?_set] at hget
      split_ifs at hget with hname
      · have hargs := (Option.some.inj hget).symm
        exact .inr ⟨c, hc, .inr ⟨hname, hargs, hmade _ hdlq, hmade _ hbound⟩⟩
      · exact .inl hget
    · split_ifs at h
      cases h
      exact hr
  | bind ht hexchange hqueue =>
    simp only [Rabbit.apply] at h
    split_ifs at h with hdeclared hmem
    · cases h
      exact hr
    · cases h
      refine sound_of_extends hr hext (fun _ _ h => .inl h) (fun b hb => ?_)
      rcases List.mem_append.mp hb with hold | hnew
      · exact .inl hold
      · rw [List.mem_singleton.mp hnew]
        exact .inr ⟨⟨c, hc, List.mem_cons_of_mem _ (List.mem_map_of_mem ht)⟩, hdeclared.2⟩
  | consume hqueue =>
    simp only [Rabbit.apply] at h
    split_ifs at h
    cases h
    exact hr

theorem mem_routed {bindings : List Binding} {exchange key q : String} :
    q ∈ routed bindings exchange key ↔ ⟨exchange, q, key⟩ ∈ bindings := by
  unfold routed
  rw [List.mem_map]
  constructor
  · intro h
    obtain ⟨b, hb, rfl⟩ := h
    obtain ⟨hmem, hkey⟩ := List.mem_filter.mp hb
    obtain ⟨rfl, rfl⟩ := of_decide_eq_true hkey
    exact hmem
  · intro h
    exact ⟨_, List.mem_filter.mpr ⟨h, decide_eq_true ⟨rfl, rfl⟩⟩, rfl⟩

theorem dlxName_ne : dlxName ≠ exchangeName := by decide

theorem dlqName_inj {c c' : Consumer} (h : c.dlqName = c'.dlqName) : c.queueName = c'.queueName :=
  (String.append_left_inj _).mp h

theorem mem_bindings {c : Consumer} {b : Binding} : b ∈ c.bindings ↔
    b = ⟨dlxName, c.dlqName, c.deadKey⟩ ∨
      ∃ t ∈ c.eventTypes, b = ⟨exchangeName, c.queueName, t⟩ := by
  unfold Consumer.bindings
  rw [List.mem_cons, List.mem_map]
  refine or_congr_right (exists_congr fun t => and_congr_right fun _ => ?_)
  exact eq_comm

/-- A binding to a queue of a consumer is one of that consumer. -/
theorem owner_of_binding (hnamed : WellNamed cs) (hr : Sound cs r) (hc : c ∈ cs) {b : Binding}
    (hb : b ∈ r.bindings) (hqueue : b.queue = c.queueName ∨ b.queue = c.dlqName) :
    b ∈ c.bindings := by
  obtain ⟨c', hc', hb'⟩ := hr.bindings b hb
  have hsame : c = c' := by
    rcases mem_bindings.mp hb' with rfl | ⟨t, ht, rfl⟩
    · rcases hqueue with hq | hq
      · exact absurd hq.symm (hnamed.apart c hc c' hc')
      · exact hnamed.queues c hc c' hc' (dlqName_inj hq).symm
    · rcases hqueue with hq | hq
      · exact hnamed.queues c hc c' hc' hq.symm
      · exact absurd hq (hnamed.apart c' hc' c hc)
  rw [hsame]
  exact hb'

/-- The dead-letter key of a consumer leads to its dead-letter queue only. -/
theorem routed_dead (hnamed : WellNamed cs) (hr : Sound cs r) (hc : c ∈ cs)
    (hbound : ⟨dlxName, c.dlqName, c.deadKey⟩ ∈ r.bindings) :
    (routed r.bindings dlxName c.deadKey).dedup = [c.dlqName] := by
  have honly : ∀ q ∈ routed r.bindings dlxName c.deadKey, q = c.dlqName := by
    intro q hq
    obtain ⟨c', hc', hb⟩ := hr.bindings _ (mem_routed.mp hq)
    rcases mem_bindings.mp hb with heq | ⟨t, -, heq⟩
    · have hkey : c.deadKey = c'.deadKey := congrArg Binding.key heq
      have hsame := hnamed.queues c hc c' hc' ((String.append_left_inj _).mp hkey)
      rw [hsame]
      exact congrArg Binding.queue heq
    · have hexchange : dlxName = exchangeName := congrArg Binding.exchange heq
      exact absurd hexchange dlxName_ne
  have hsome : (routed r.bindings dlxName c.deadKey).length ≠ 0 :=
    Nat.pos_iff_ne_zero.mp (List.length_pos_of_mem (mem_routed.mpr hbound))
  rw [List.eq_replicate_of_mem honly]
  exact List.replicate_dedup hsome

structure Inv (cs : List Consumer) (s : State) : Prop where
  progress : Progress declarations (cs.map program) s.rabbit s.processes
  sound : Sound cs s.rabbit
  deposits : ∀ d ∈ s.deposits, ∃ e, s.events[d.2]? = some e ∧
    ⟨exchangeName, d.1, e.eventType⟩ ∈ s.rabbit.bindings
  dropped : s.dropped = []
  dead : ∀ d ∈ s.dead, ∃ c ∈ cs, d.1 = c.queueName ∧ d.2.1 = c.dlqName

theorem inv_start (cs : List Consumer) : Inv cs (start cs) where
  progress := progress_start _ _
  sound := ⟨by simp [start], by simp [start], by simp [start]⟩
  deposits := by simp [start]
  dropped := rfl
  dead := by simp [start]

/-- Whose declaration a process is about to make. -/
theorem next_of_head {s : State} (hs : Inv cs s) {i : Nat} {rest : List Declaration}
    (h : head? s.processes i = some (o, rest)) :
    ∃ c ∈ cs, ∃ made, Next c made o ∧ ∀ o' ∈ made, Done s.rabbit o' := by
  obtain ⟨made, hprogram, hmade⟩ := hs.progress.before h
  rw [List.getElem?_map] at hprogram
  obtain ⟨c, hc, heq⟩ := Option.map_eq_some_iff.mp hprogram
  exact ⟨c, List.mem_of_getElem? hc, made, next_of_program heq, hmade⟩

/-- A queue with a copy of an event is that of a consumer, complete with its dead-letter queue. -/
theorem owner_of_deposit (hnamed : WellNamed cs) {s : State} (hs : Inv cs s) {q : String} {n : Nat}
    (h : (q, n) ∈ s.deposits) : ∃ c ∈ cs, q = c.queueName ∧
      s.rabbit.queues.get? q = some (some (dlxName, c.deadKey)) ∧
      (routed s.rabbit.bindings dlxName c.deadKey).dedup = [c.dlqName] := by
  obtain ⟨e, -, hbinding⟩ := hs.deposits _ h
  obtain ⟨c, hc, hown⟩ := hs.sound.bindings _ hbinding
  have hqueue : q = c.queueName := by
    rcases mem_bindings.mp hown with heq | ⟨t, -, heq⟩
    · have hexchange : dlxName = exchangeName := (congrArg Binding.exchange heq).symm
      exact absurd hexchange dlxName_ne
    · exact congrArg Binding.queue heq
  obtain ⟨deadLetter, hget⟩ := Option.isSome_iff_exists.mp (hs.sound.bound _ hbinding)
  obtain ⟨c', hc', hdlq | ⟨hname, hargs, -, hbound⟩⟩ := hs.sound.queues q deadLetter hget
  · exact absurd (hqueue.symm.trans hdlq.1) (hnamed.apart c hc c' hc')
  · have hsame := hnamed.queues c hc c' hc' (hqueue.symm.trans hname)
    subst hsame
    rw [hargs] at hget
    exact ⟨c, hc, hqueue, hget, routed_dead hnamed hs.sound hc hbound⟩

theorem deadLetter_eq (hnamed : WellNamed cs) {s : State} (hs : Inv cs s) {q : String} {n : Nat}
    (h : (q, n) ∈ s.deposits) : ∃ c ∈ cs, q = c.queueName ∧
      s.deadLetter q n = { s with dead := s.dead ++ [(q, c.dlqName, n)] } := by
  obtain ⟨c, hc, hqueue, hget, hrouted⟩ := owner_of_deposit hnamed hs h
  refine ⟨c, hc, hqueue, ?_⟩
  simp only [State.deadLetter, hget, hrouted]
  rfl

theorem mem_deposit {s : State} {n : Nat} {e : Event} {d : String × Nat} :
    d ∈ (s.deposit n e).deposits ↔ d ∈ s.deposits ∨
      d.2 = n ∧ ⟨exchangeName, d.1, e.eventType⟩ ∈ s.rabbit.bindings := by
  unfold State.deposit
  simp only [List.mem_append, List.mem_map, List.mem_dedup, mem_routed]
  refine or_congr_right ?_
  constructor
  · intro h
    obtain ⟨q, hq, rfl⟩ := h
    exact ⟨rfl, hq⟩
  · intro h
    exact ⟨d.1, h.2, by rw [← h.1]⟩

/-- What a later state still has. -/
structure Later (s u : State) : Prop where
  rabbit : Extends s.rabbit u.rabbit
  events : s.events <+: u.events
  deposits : ∀ d ∈ s.deposits, d ∈ u.deposits

theorem later_refl (s : State) : Later s s :=
  ⟨extends_refl _, List.prefix_rfl, fun _ h => h⟩

theorem Extends.trans {r t u : Rabbit} (h : Extends r t) (h' : Extends t u) : Extends r u :=
  ⟨fun name hn => h'.exchanges name (h.exchanges name hn),
    fun name args hq => h'.queues name args (h.queues name args hq),
    fun b hb => h'.bindings b (h.bindings b hb)⟩

theorem Later.trans {s t u : State} (h : Later s t) (h' : Later t u) : Later s u :=
  ⟨h.rabbit.trans h'.rabbit, h.events.trans h'.events,
    fun d hd => h'.deposits d (h.deposits d hd)⟩

theorem later_deposit {s : State} {n : Nat} {e : Event} : Later s (s.deposit n e) :=
  ⟨extends_refl _, List.prefix_rfl, fun _ hd => mem_deposit.mpr (.inl hd)⟩

theorem step_inv (hnamed : WellNamed cs) {s u : State} {a : Label} (hs : Inv cs s)
    (h : step cs s a = some u) : Inv cs u ∧ Later s u := by
  cases a with
  | process a =>
    obtain ⟨⟨t, processes⟩, hprocess, rfl⟩ := Option.map_eq_some_iff.mp h
    obtain ⟨hprogress, hwhich⟩ := step_progress hs.progress hprocess
    have hrabbit : Sound cs t ∧ Extends s.rabbit t := by
      rcases hwhich with rfl | ⟨i, o, rest, hhead, happly⟩
      · exact ⟨hs.sound, extends_refl _⟩
      · obtain ⟨c, hc, made, hnext, hmade⟩ := next_of_head hs hhead
        exact ⟨sound_apply hs.sound hc hnext hmade happly, extends_apply happly⟩
    refine ⟨⟨hprogress, hrabbit.1, ?_, hs.dropped, hs.dead⟩,
      hrabbit.2, List.prefix_rfl, fun _ hd => hd⟩
    intro d hd
    obtain ⟨e, he, hbinding⟩ := hs.deposits d hd
    exact ⟨e, he, hrabbit.2.bindings _ hbinding⟩
  | publish e =>
    simp only [step] at h
    split_ifs at h
    cases h
    refine ⟨⟨hs.progress, hs.sound, ?_, hs.dropped, hs.dead⟩, extends_refl _,
      List.prefix_append _ _, fun _ hd => mem_deposit.mpr (.inl hd)⟩
    intro d hd
    show ∃ e', (s.events ++ [e])[d.2]? = some e' ∧ _
    rcases mem_deposit.mp hd with hold | ⟨hlast, hbinding⟩
    · obtain ⟨e', he', hbinding⟩ := hs.deposits d hold
      obtain ⟨hlt, -⟩ := List.getElem?_eq_some_iff.mp he'
      exact ⟨e', (List.getElem?_append_left hlt).trans he', hbinding⟩
    · exact ⟨e, by rw [hlast, List.getElem?_concat_length], hbinding⟩
  | republish n =>
    obtain ⟨e, he, rfl⟩ := Option.map_eq_some_iff.mp h
    refine ⟨⟨hs.progress, hs.sound, ?_, hs.dropped, hs.dead⟩, later_deposit⟩
    intro d hd
    rcases mem_deposit.mp hd with hold | ⟨hlast, hbinding⟩
    · exact hs.deposits d hold
    · exact ⟨e, by rw [hlast]; exact he, hbinding⟩
  | reject q n =>
    simp only [step] at h
    split_ifs at h with hmem
    cases h
    obtain ⟨c, hc, hqueue, heq⟩ := deadLetter_eq hnamed hs hmem
    rw [heq]
    refine ⟨⟨hs.progress, hs.sound, hs.deposits, hs.dropped, ?_⟩,
      extends_refl _, List.prefix_rfl, fun _ hd => hd⟩
    intro d hd
    rcases List.mem_append.mp hd with hold | hnew
    · exact hs.dead d hold
    · rw [List.mem_singleton.mp hnew]
      exact ⟨c, hc, hqueue, rfl⟩

theorem exec_inv (hnamed : WellNamed cs) {s u : State} {as : List Label} (hs : Inv cs s)
    (h : exec (step cs) s as = some u) : Inv cs u ∧ Later s u := by
  refine exec_invariant (fun t => Inv cs t ∧ Later s t) ?_ ⟨hs, later_refl s⟩ h
  intro t a v ht hstep
  obtain ⟨hinv, hlater⟩ := step_inv hnamed ht.1 hstep
  exact ⟨hinv, ht.2.trans hlater⟩

/-- The queues of a consumer and the routes to them are those its `start` asks for. -/
structure Configured (r : Rabbit) (c : Consumer) : Prop where
  queue : r.queues.get? c.queueName = some (some (dlxName, c.deadKey))
  dlq : r.queues.get? c.dlqName = some none
  routes : ∀ exchange key q, q = c.queueName ∨ q = c.dlqName →
    (q ∈ routed r.bindings exchange key ↔ q ∈ routed c.bindings exchange key)

def Bound (r : Rabbit) (c : Consumer) (eventType : String) : Prop :=
  ⟨exchangeName, c.queueName, eventType⟩ ∈ r.bindings

/-- The `start` of service `i` has returned, and the service is still running. -/
def State.Up (s : State) (i : Nat) : Prop := s.processes[i]? = some (some [])

theorem program_done {s : State} (hs : Inv cs s) {i : Nat} (hc : cs[i]? = some c) (hup : s.Up i) :
    ∀ o ∈ program c, Done s.rabbit o := by
  refine hs.progress.through ?_ hup
  rw [List.getElem?_map, hc]
  rfl

theorem configured_of_done (hnamed : WellNamed cs) (hr : Sound cs r) (hc : c ∈ cs)
    (hdone : ∀ o ∈ program c, Done r o) : Configured r c := by
  have hall : ∀ b ∈ c.bindings, b ∈ r.bindings := by
    intro b hb
    rcases mem_bindings.mp hb with rfl | ⟨t, ht, rfl⟩
    · exact hdone (.bind ⟨dlxName, c.dlqName, c.deadKey⟩) (by simp [program])
    · exact hdone (.bind ⟨exchangeName, c.queueName, t⟩) (by simp [program, ht])
  refine ⟨hdone (.queue c.queueName (some (dlxName, c.deadKey))) (by simp [program]),
    hdone (.queue c.dlqName none) (by simp [program]), ?_⟩
  intro exchange key q hq
  rw [mem_routed, mem_routed]
  constructor
  · exact fun hb => owner_of_binding hnamed hr hc hb hq
  · exact fun hb => hall _ hb

theorem Extends.program_done (h : Extends r t) (hdone : ∀ o ∈ program c, Done r o) :
    ∀ o ∈ program c, Done t o :=
  fun o ho => h.done o (hdone o ho)

/-- However services start, fail and start again next to each other: no declaration is refused,
a consumer that has once started stays configured, and every copy that is rejected lands in the
dead-letter queue of its consumer. -/
theorem start_configures (hnamed : WellNamed cs) {pre post : List Label} {s u : State}
    (hpre : exec (step cs) (start cs) pre = some s) (hpost : exec (step cs) s post = some u) :
    (∀ i o rest, head? u.processes i = some (o, rest) → u.rabbit.apply o ≠ none) ∧
      (∀ i c, cs[i]? = some c → s.Up i → Configured u.rabbit c) ∧
      u.dropped = [] ∧ ∀ d ∈ u.dead, ∃ c ∈ cs, d.1 = c.queueName ∧ d.2.1 = c.dlqName := by
  obtain ⟨hs, -⟩ := exec_inv hnamed (inv_start cs) hpre
  obtain ⟨hu, hlater⟩ := exec_inv hnamed hs hpost
  refine ⟨?_, ?_, hu.dropped, hu.dead⟩
  · intro i o rest hhead
    obtain ⟨c, hc, made, hnext, hmade⟩ := next_of_head hu hhead
    exact accepted hnamed hu.sound hc hnext hmade
  · intro i c hc hup
    have hdone := hlater.rabbit.program_done (program_done hs hc hup)
    exact configured_of_done hnamed hu.sound (List.mem_of_getElem? hc) hdone

/-- Every event of the type that was published since a state was delivered to the queue. -/
def DeliveredSince (s : State) (q eventType : String) (u : State) : Prop :=
  ∀ m e, s.events.length ≤ m → u.events[m]? = some e → e.eventType = eventType →
    (q, m) ∈ u.deposits

theorem deliveredSince_step {s u v : State} {a : Label} {q eventType : String}
    (hbinding : ⟨exchangeName, q, eventType⟩ ∈ u.rabbit.bindings)
    (hu : DeliveredSince s q eventType u) (h : step cs u a = some v) :
    DeliveredSince s q eventType v := by
  cases a with
  | process a =>
    obtain ⟨r, -, rfl⟩ := Option.map_eq_some_iff.mp h
    exact hu
  | publish e =>
    simp only [step] at h
    split_ifs at h
    cases h
    intro m e' hm he' htype
    rcases Pool.getElem?_snoc_cases he' with ⟨rfl, rfl⟩ | hold
    · rw [← htype] at hbinding
      exact mem_deposit.mpr (.inr ⟨rfl, hbinding⟩)
    · exact mem_deposit.mpr (.inl (hu m e' hm hold htype))
  | republish n =>
    obtain ⟨e, -, rfl⟩ := Option.map_eq_some_iff.mp h
    intro m e' hm he' htype
    exact mem_deposit.mpr (.inl (hu m e' hm he' htype))
  | reject queue n =>
    simp only [step] at h
    split_ifs at h
    cases h
    unfold State.deadLetter
    split
    · split
      · exact hu
      · exact hu
    · exact hu

/-- A queue gets no copy of an event before it is bound to the type, unless the event is
published again. -/
theorem notMem_step {u v : State} {a : Label} {q : String} {m : Nat}
    (hm : m < u.events.length) (hnot : (q, m) ∉ u.deposits) (ha : a ≠ .republish m)
    (h : step cs u a = some v) : m < v.events.length ∧ (q, m) ∉ v.deposits := by
  cases a with
  | process a =>
    obtain ⟨r, -, rfl⟩ := Option.map_eq_some_iff.mp h
    exact ⟨hm, hnot⟩
  | publish e =>
    simp only [step] at h
    split_ifs at h
    cases h
    refine ⟨?_, fun hmem => ?_⟩
    · show m < (u.events ++ [e]).length
      rw [List.length_append]
      omega
    · rcases mem_deposit.mp hmem with hold | ⟨hlast, -⟩
      · exact hnot hold
      · have hsame : m = u.events.length := hlast
        omega
  | republish n =>
    obtain ⟨e, -, rfl⟩ := Option.map_eq_some_iff.mp h
    refine ⟨hm, fun hmem => ?_⟩
    rcases mem_deposit.mp hmem with hold | ⟨hlast, -⟩
    · exact hnot hold
    · have hsame : m = n := hlast
      exact ha (by rw [hsame])
  | reject queue n =>
    simp only [step] at h
    split_ifs at h
    cases h
    unfold State.deadLetter
    split
    · split
      · exact ⟨hm, hnot⟩
      · exact ⟨hm, hnot⟩
    · exact ⟨hm, hnot⟩

/-- From the binding on a queue receives every event of the type, whatever restarts in between;
an event from before the binding it never receives, unless it is published again; and an event
of another type it does not receive at all. -/
theorem queue_receives (hnamed : WellNamed cs) {pre post : List Label} {s u : State}
    (hpre : exec (step cs) (start cs) pre = some s) (hpost : exec (step cs) s post = some u)
    (hc : c ∈ cs) :
    (∀ m e, s.events.length ≤ m → u.events[m]? = some e → Bound s.rabbit c e.eventType →
      (c.queueName, m) ∈ u.deposits) ∧
      (∀ m e, s.events[m]? = some e → ¬ Bound s.rabbit c e.eventType → .republish m ∉ post →
        (c.queueName, m) ∉ u.deposits) ∧
      ∀ m e, u.events[m]? = some e → e.eventType ∉ c.eventTypes →
        (c.queueName, m) ∉ u.deposits := by
  obtain ⟨hs, -⟩ := exec_inv hnamed (inv_start cs) hpre
  obtain ⟨hu, -⟩ := exec_inv hnamed hs hpost
  refine ⟨?_, ?_, ?_⟩
  · intro m e hm he hbound
    have hrun := exec_invariant
      (fun v => Later s v ∧ DeliveredSince s c.queueName e.eventType v ∧ Inv cs v) ?_ ?_ hpost
    · exact hrun.2.1 m e hm he rfl
    · intro v a w hv hstep
      obtain ⟨hlater, hdelivered, hinv⟩ := hv
      obtain ⟨hinv', hlater'⟩ := step_inv hnamed hinv hstep
      have hbinding := hlater.rabbit.bindings _ hbound
      exact ⟨hlater.trans hlater', deliveredSince_step hbinding hdelivered hstep, hinv'⟩
    · refine ⟨later_refl s, ?_, hs⟩
      intro k e' hk he' htype
      obtain ⟨hlt, -⟩ := List.getElem?_eq_some_iff.mp he'
      omega
  · intro m e he hunbound hnot
    obtain ⟨hlt, -⟩ := List.getElem?_eq_some_iff.mp he
    have hbefore : (c.queueName, m) ∉ s.deposits := by
      intro hmem
      obtain ⟨e', he', hbinding⟩ := hs.deposits _ hmem
      rw [Option.some.inj (he.symm.trans he')] at hunbound
      exact hunbound hbinding
    have hmeets : Meets (step cs) (fun _ a => a ≠ .republish m) s post :=
      meets_of_forall s fun a ha heq => hnot (heq ▸ ha)
    have hrun := exec_invariant_of_meets
      (fun v => m < v.events.length ∧ (c.queueName, m) ∉ v.deposits)
      (fun v a w hv ha hstep => notMem_step hv.1 hv.2 ha hstep) ⟨hlt, hbefore⟩ hmeets hpost
    exact hrun.2
  · intro m e he htype hmem
    obtain ⟨e', he', hbinding⟩ := hu.deposits _ hmem
    rw [← Option.some.inj (he.symm.trans he')] at hbinding
    have hown := owner_of_binding hnamed hu.sound hc hbinding (.inl rfl)
    rcases mem_bindings.mp hown with heq | ⟨t, ht, heq⟩
    · have hexchange : dlxName = exchangeName := (congrArg Binding.exchange heq).symm
      exact dlxName_ne hexchange
    · have hkey : e.eventType = t := congrArg Binding.key heq
      exact htype (hkey ▸ ht)

end

/-- What `build_consumer` gives: order, inventory, shipping and notification service. -/
def services : List Consumer :=
  [⟨"order.events", ["StockReserved", "StockUnavailable", "ShipmentCreated"]⟩,
    ⟨"inventory.events", ["OrderCreated", "OrderCancelled"]⟩,
    shippingConsumer,
    ⟨"notification.events",
      ["OrderCreated", "StockReserved", "ShipmentCreated", "ShipmentDelivered"]⟩]

theorem wellNamed_services : WellNamed services := by
  constructor
  · intro c hc c' hc' h
    simp only [services, List.mem_cons, List.not_mem_nil, or_false] at hc hc'
    rcases hc with rfl | rfl | rfl | rfl <;> rcases hc' with rfl | rfl | rfl | rfl <;>
      first | rfl | exact absurd h (by decide)
  · intro c hc c' hc'
    simp only [services, List.mem_cons, List.not_mem_nil, or_false] at hc hc'
    rcases hc with rfl | rfl | rfl | rfl <;> rcases hc' with rfl | rfl | rfl | rfl <;> decide

/-- The inventory service publishes while the shipping service has not declared its queue; the
connection of the latter is lost in its last binding, and it starts again. -/
def interruptedStart : List Label :=
  [.process (.boot 1), .process (.perform 1), .publish reservedOrder, .process (.boot 2)] ++
    List.replicate 5 (.process (.perform 2)) ++
    [.process (.fail 2 true), .process (.boot 2)] ++
    List.replicate 7 (.process (.perform 2))

def reservedAfterStart : List Label :=
  [.publish reservedOrder, .reject "shipping.events" 1, .process (.stop 2)]

def interrupted : Option State := exec (step services) (start services) interruptedStart

theorem interruptedStart_runs :
    ∃ s u, exec (step services) (start services) interruptedStart = some s ∧
      exec (step services) s reservedAfterStart = some u ∧ s.Up 2 ∧ s.events = [reservedOrder] ∧
      Bound s.rabbit shippingConsumer "StockReserved" ∧
      u.events = [reservedOrder, reservedOrder] := by
  have hrun : (interrupted.bind fun s => exec (step services) s reservedAfterStart).isSome := by
    decide +kernel
  obtain ⟨u, hu⟩ := Option.isSome_iff_exists.mp hrun
  obtain ⟨s, hs, hu⟩ := Option.bind_eq_some_iff.mp hu
  have hbefore : ∀ s ∈ interrupted, s.processes[2]? = some (some []) ∧ s.events = [reservedOrder] ∧
      (⟨exchangeName, shippingConsumer.queueName, "StockReserved"⟩ : Binding) ∈
        s.rabbit.bindings := by
    decide +kernel
  have hafter : ∀ s ∈ interrupted, ∀ u ∈ exec (step services) s reservedAfterStart,
      u.events = [reservedOrder, reservedOrder] := by
    decide +kernel
  obtain ⟨hup, hevents, hbound⟩ := hbefore s hs
  exact ⟨s, u, hs, hu, hup, hevents, hbound, hafter s hs u hu⟩

theorem start_configures_interrupted :
    ∃ s u, exec (step services) (start services) interruptedStart = some s ∧
      exec (step services) s reservedAfterStart = some u ∧
      Configured u.rabbit shippingConsumer ∧ u.dropped = [] := by
  obtain ⟨s, u, hs, hu, hup, -⟩ := interruptedStart_runs
  obtain ⟨-, hconfigured, hdropped, -⟩ := start_configures wellNamed_services hs hu
  exact ⟨s, u, hs, hu, hconfigured 2 shippingConsumer rfl hup, hdropped⟩

theorem queue_receives_interrupted :
    ∃ s u, exec (step services) (start services) interruptedStart = some s ∧
      exec (step services) s reservedAfterStart = some u ∧ ("shipping.events", 1) ∈ u.deposits := by
  obtain ⟨s, u, hs, hu, -, hevents, hbound, hevents'⟩ := interruptedStart_runs
  obtain ⟨hreceived, -⟩ := queue_receives wellNamed_services hs hu
    (show shippingConsumer ∈ services by simp [services])
  have hlength : s.events.length ≤ 1 := by
    rw [hevents]
    exact Nat.le_refl 1
  have hevent : u.events[1]? = some reservedOrder := by
    rw [hevents']
    rfl
  exact ⟨s, u, hs, hu, hreceived 1 reservedOrder hlength hevent hbound⟩

end OrderMesh.Startup
