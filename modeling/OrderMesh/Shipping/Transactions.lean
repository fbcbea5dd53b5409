import OrderMesh.Library.Decimal
import OrderMesh.Library.Pool
import OrderMesh.Library.Transition
import OrderMesh.Shipping.Service

namespace OrderMesh.Shipping

/-- The unique indexes of `shipments`. -/
inductive Index
  | orderId
  | trackingNumber
  deriving DecidableEq

/-- How far a call has come. A row has its id before it is inserted; `own` is the id of the shipment
that the call has inserted itself, and a unique index refuses a row because of the row `other`. -/
inductive Phase
  | ready
  | absent
  | drawn (id : Int) (courier : String)
  | inserted (id : Int) (shipment : Shipment)
  | numbered (id : Int) (shipment : Shipment)
  | committed (id : Int)
  | announcing (own : Option Int) (p : Payload)
  | finished (own : Option Int)
  | failed (id : Int) (index : Index) (other : Int)
  | rolledBack (own : Option Int)
  deriving DecidableEq

/-- A handler of `StockReserved`. -/
structure Call where
  orderId : Int
  phase : Phase
  deriving DecidableEq

structure Db where
  shipments : Shipments
  calls : List Call
  published : List Payload

def Db.empty : Db := ⟨.empty, [], []⟩

/-- The row that other transactions cannot see yet. -/
def Phase.row : Phase → Option (Int × Shipment)
  | .inserted id shipment => some (id, shipment)
  | .numbered id shipment => some (id, shipment)
  | _ => none

/-- The id that the call has drawn. -/
def Phase.key : Phase → Option Int
  | .ready => none
  | .absent => none
  | .drawn id _ => some id
  | .inserted id _ => some id
  | .numbered id _ => some id
  | .committed id => some id
  | .announcing own _ => own
  | .finished own => own
  | .failed id _ _ => some id
  | .rolledBack own => own

/-- The id of the shipment that the call has committed. -/
def Phase.wrote : Phase → Option Int
  | .committed id => some id
  | .announcing own _ => own
  | .finished own => own
  | _ => none

/-- Before its commit a call can end without a trace. -/
def Phase.pending : Phase → Bool
  | .ready => true
  | .absent => true
  | .drawn .. => true
  | .inserted .. => true
  | .numbered .. => true
  | _ => false

/-- The rows hold the same key of a unique index. -/
def Shipment.conflicts (s t : Shipment) : Bool :=
  s.orderId = t.orderId ∨ s.trackingNumber = t.trackingNumber

/-- Another transaction has an uncommitted row with one of the keys. -/
def Db.waits (d : Db) (id : Int) (shipment : Shipment) : Bool :=
  d.calls.any fun c => c.phase.row.any fun row => row.1 ≠ id ∧ row.2.conflicts shipment

/-- The committed row that a unique index finds in the way. -/
def conflict (shipments : Shipments) (shipment : Shipment) : Option (Index × Int) :=
  match shipments.rows.find? fun row => row.2.orderId = shipment.orderId with
  | some row => some (.orderId, row.1)
  | none =>
      (shipments.rows.find? fun row => row.2.trackingNumber = shipment.trackingNumber).map
        fun row => (.trackingNumber, row.1)

inductive Move
  | lookup
  | draw (courier : String)
  | insert
  | number (year : Nat)
  | commit
  | refresh
  | publish
  | rollback
  deriving DecidableEq

/-- Write the uncommitted row; the transaction fails with the row. -/
def Db.write (d : Db) (id : Int) (shipment : Shipment) (written : Phase) : Option Phase :=
  if d.waits id shipment then none
  else
    match conflict d.shipments shipment with
    | some (index, other) => some (.failed id index other)
    | none => some written

/-- One step of a call: the table after it, how far it has come and what it publishes. -/
def Db.advance (d : Db) (orderId : Int) :
    Phase → Move → Option (Shipments × Phase × List Payload)
  | .ready, .lookup =>
      match existing d.shipments orderId with
      | some shipment => some (d.shipments, .announcing none (shipmentCreated shipment), [])
      | none => some (d.shipments, .absent, [])
  | .absent, .draw courier =>
      if courier ∈ couriers then some (d.shipments.draw, .drawn d.shipments.next courier, [])
      else none
  | .drawn id courier, .insert =>
      let shipment : Shipment := ⟨orderId, "", courier, .created⟩
      (d.write id shipment (.inserted id shipment)).map fun phase => (d.shipments, phase, [])
  | .inserted id shipment, .number year =>
      let shipment := { shipment with trackingNumber := trackingNumber year id }
      (d.write id shipment (.numbered id shipment)).map fun phase => (d.shipments, phase, [])
  | .numbered id shipment, .commit =>
      if h : d.shipments.Free id then some (d.shipments.place id shipment h, .committed id, [])
      else none
  | .committed id, .refresh =>
      (d.shipments.get? id).map fun shipment =>
        (d.shipments, .announcing (some id) (shipmentCreated (id, shipment)), [])
  | .announcing own p, .publish => some (d.shipments, .finished own, [p])
  | phase, .rollback =>
      if phase.pending then some (d.shipments, .rolledBack phase.key, []) else none
  | _, _ => none

/-- A message reaches a handler, for the first time or again, a status is written, or a call moves.
-/
inductive Act
  | deliver (orderId : Int)
  | updateStatus (id : Int) (status : ShipmentStatus)
  | call (i : Nat) (m : Move)

def step (d : Db) : Act → Option Db
  | .deliver orderId => some { d with calls := d.calls ++ [⟨orderId, .ready⟩] }
  | .updateStatus id status => some { d with shipments := updateStatus d.shipments id status }
  | .call i m =>
      match d.calls[i]? with
      | none => none
      | some c =>
          (d.advance c.orderId c.phase m).map fun r =>
            ⟨r.1, d.calls.set i ⟨c.orderId, r.2.1⟩, d.published ++ r.2.2⟩

/-- What the shipments promise. A call that fails leaves no row behind, and only another call's
shipment of its order has refused it. -/
structure Db.Law (d : Db) : Prop where
  onePerOrder : ∀ r ∈ d.shipments.rows, ∀ r' ∈ d.shipments.rows, r.2.orderId = r'.2.orderId → r = r'
  distinct : ∀ r ∈ d.shipments.rows, ∀ r' ∈ d.shipments.rows,
    r.2.trackingNumber = r'.2.trackingNumber → r = r'
  nonempty : ∀ r ∈ d.shipments.rows, r.2.trackingNumber ≠ ""
  leavesNone : ∀ (i : Nat) c id index other, d.calls[i]? = some c →
    c.phase = .failed id index other → id ∉ d.shipments.rows.map Prod.fst
  rolledBack : ∀ (i : Nat) c id, d.calls[i]? = some c →
    c.phase = .rolledBack (some id) → id ∉ d.shipments.rows.map Prod.fst
  sameOrder : ∀ (i : Nat) c id index other, d.calls[i]? = some c →
    c.phase = .failed id index other → index = .orderId ∧
      ∃ (j : Nat) (c' : Call) (r : Int × Shipment), j ≠ i ∧ d.calls[j]? = some c' ∧
        c'.orderId = c.orderId ∧ c'.phase.wrote = some other ∧ r ∈ d.shipments.rows ∧ r.1 = other ∧
        r.2.orderId = c.orderId
  announced : ∀ p ∈ d.published, ∀ p' ∈ d.published, p.orderId = p'.orderId → p = p'

theorem toList_sixDigits (n : Int) : ∃ k, (sixDigits n).toList =
    (if n < 0 then ['-'] else []) ++ (List.replicate k '0' ++ Nat.toDigits 10 n.natAbs) := by
  unfold sixDigits
  by_cases hn : n < 0
  · refine ⟨6 - "-".length - (toString n.natAbs).length, ?_⟩
    simp only [if_pos hn, String.toList_append, String.toList_ofList, Decimal.toList_natToString,
      List.append_assoc]
    rfl
  · refine ⟨6 - "".length - (toString n.natAbs).length, ?_⟩
    simp only [if_neg hn, String.toList_append, String.toList_ofList, Decimal.toList_natToString,
      List.append_assoc]
    rfl

theorem sixDigits_injective {m n : Int} (h : sixDigits m = sixDigits n) : m = n := by
  obtain ⟨j, hm⟩ := toList_sixDigits m
  obtain ⟨k, hn⟩ := toList_sixDigits n
  rw [h, hn] at hm
  exact (Decimal.signed_injective hm).symm

/-- The id can be read off a tracking number, whatever its year and however long it is. -/
theorem trackingNumber_injective {year year' : Nat} {id id' : Int}
    (h : trackingNumber year id = trackingNumber year' id') : id = id' := by
  have hlist := congrArg String.toList h
  unfold trackingNumber at hlist
  simp only [String.toList_append, Decimal.toList_natToString, List.append_assoc] at hlist
  have hyear : ∀ n : Nat, '-' ∉ Nat.toDigits 10 n := Decimal.notMem_digits (by decide)
  have hrest :=
    (Decimal.split_separator (hyear year) (hyear year') (List.append_cancel_left hlist)).2
  exact sixDigits_injective (String.toList_inj.mp hrest)

theorem trackingNumber_ne_empty (year : Nat) (id : Int) : trackingNumber year id ≠ "" := by
  intro h
  have hlist := congrArg String.toList h
  unfold trackingNumber at hlist
  simp [String.toList_append] at hlist

theorem conflict_eq_none {shipments : Shipments} {shipment : Shipment} :
    conflict shipments shipment = none ↔ ∀ r ∈ shipments.rows,
      r.2.orderId ≠ shipment.orderId ∧ r.2.trackingNumber ≠ shipment.trackingNumber := by
  unfold conflict
  constructor
  · intro h r hr
    split at h
    · cases h
    · rename_i horder
      have htracking := List.find?_eq_none.mp (Option.map_eq_none_iff.mp h) r hr
      have horder := List.find?_eq_none.mp horder r hr
      exact ⟨by simpa using horder, by simpa using htracking⟩
  · intro h
    have horder : shipments.rows.find? (fun row => row.2.orderId = shipment.orderId) = none := by
      refine List.find?_eq_none.mpr fun r hr => ?_
      simpa using (h r hr).1
    rw [horder]
    refine Option.map_eq_none_iff.mpr (List.find?_eq_none.mpr fun r hr => ?_)
    simpa using (h r hr).2

theorem conflict_eq_some {shipments : Shipments} {shipment : Shipment} {index : Index} {other : Int}
    (h : conflict shipments shipment = some (index, other)) :
    ∃ r ∈ shipments.rows, r.1 = other ∧
      ((index = .orderId ∧ r.2.orderId = shipment.orderId) ∨
        (index = .trackingNumber ∧ r.2.trackingNumber = shipment.trackingNumber)) := by
  unfold conflict at h
  split at h
  · rename_i row hfind
    cases h
    exact ⟨row, List.mem_of_find?_eq_some hfind, rfl,
      .inl ⟨rfl, by simpa using List.find?_some hfind⟩⟩
  · obtain ⟨row, hfind, heq⟩ := Option.map_eq_some_iff.mp h
    cases heq
    exact ⟨row, List.mem_of_find?_eq_some hfind, rfl,
      .inr ⟨rfl, by simpa using List.find?_some hfind⟩⟩

/-- Nobody else holds the order id of a row that does not wait. -/
theorem Db.orderId_of_not_waits {d : Db} {id : Int} {shipment : Shipment}
    (h : d.waits id shipment = false) {i : Nat} {c : Call} (hc : d.calls[i]? = some c)
    {row : Int × Shipment} (hrow : c.phase.row = some row) (hid : row.1 ≠ id) :
    row.2.orderId ≠ shipment.orderId := by
  intro horder
  have hany : d.waits id shipment = true := by
    refine List.any_eq_true.mpr ⟨c, List.mem_of_getElem? hc, ?_⟩
    rw [hrow]
    simp [hid, Shipment.conflicts, horder]
  rw [h] at hany
  cases hany

theorem Db.write_eq_some {d : Db} {id : Int} {shipment : Shipment} {written phase : Phase}
    (h : d.write id shipment written = some phase) :
    d.waits id shipment = false ∧
      ((conflict d.shipments shipment = none ∧ phase = written) ∨
        ∃ index other, conflict d.shipments shipment = some (index, other) ∧
          phase = .failed id index other) := by
  unfold Db.write at h
  split_ifs at h with hwaits
  refine ⟨by simpa using hwaits, ?_⟩
  split at h
  · rename_i index other hconflict
    cases h
    exact .inr ⟨index, other, hconflict, rfl⟩
  · rename_i hconflict
    cases h
    exact .inl ⟨hconflict, rfl⟩

/-- The row that the insert or the update writes, and the phase it leads to. -/
inductive Writes (o : Int) : Phase → Move → Int → Shipment → Phase → Prop
  | insert {id courier} : Writes o (.drawn id courier) .insert id ⟨o, "", courier, .created⟩
      (.inserted id ⟨o, "", courier, .created⟩)
  | number {id shipment year} : Writes o (.inserted id shipment) (.number year) id
      { shipment with trackingNumber := trackingNumber year id }
      (.numbered id { shipment with trackingNumber := trackingNumber year id })

/-- Everything one step of a call can be. -/
inductive Moved (d : Db) (o : Int) : Phase → Move → Shipments → Phase → List Payload → Prop
  | found {row} (h : existing d.shipments o = some row) :
      Moved d o .ready .lookup d.shipments (.announcing none (shipmentCreated row)) []
  | absent (h : existing d.shipments o = none) : Moved d o .ready .lookup d.shipments .absent []
  | drawn {courier} : Moved d o .absent (.draw courier) d.shipments.draw
      (.drawn d.shipments.next courier) []
  | written {phase m id shipment written} (hwrites : Writes o phase m id shipment written)
      (hwaits : d.waits id shipment = false) (hconflict : conflict d.shipments shipment = none) :
      Moved d o phase m d.shipments written []
  | refused {phase m id shipment written index other}
      (hwrites : Writes o phase m id shipment written)
      (hconflict : conflict d.shipments shipment = some (index, other)) :
      Moved d o phase m d.shipments (.failed id index other) []
  | committed {id shipment} (h : d.shipments.Free id) : Moved d o (.numbered id shipment) .commit
      (d.shipments.place id shipment h) (.committed id) []
  | refreshed {id shipment} (h : d.shipments.get? id = some shipment) :
      Moved d o (.committed id) .refresh d.shipments
        (.announcing (some id) (shipmentCreated (id, shipment))) []
  | published {own p} : Moved d o (.announcing own p) .publish d.shipments (.finished own) [p]
  | rolledBack {phase} (h : phase.pending = true) :
      Moved d o phase .rollback d.shipments (.rolledBack phase.key) []

theorem Db.advance_moved {d : Db} {o : Int} {phase phase' : Phase} {m : Move} {t : Shipments}
    {ps : List Payload} (h : d.advance o phase m = some (t, phase', ps)) :
    Moved d o phase m t phase' ps := by
  have hwrite : ∀ {id shipment written}, Writes o phase m id shipment written →
      (d.write id shipment written).map (fun phase => (d.shipments, phase, ([] : List Payload))) =
        some (t, phase', ps) → Moved d o phase m t phase' ps := by
    intro id shipment written hwrites hmap
    obtain ⟨p, hp, heq⟩ := Option.map_eq_some_iff.mp hmap
    cases heq
    obtain ⟨hwaits, ⟨hnone, rfl⟩ | ⟨index, other, hsome, rfl⟩⟩ := Db.write_eq_some hp
    · exact .written hwrites hwaits hnone
    · exact .refused hwrites hsome
  unfold Db.advance at h
  split at h
  case h_1 =>
    split at h
    · rename_i hfound
      cases h
      exact .found hfound
    · rename_i hnone
      cases h
      exact .absent hnone
  case h_2 =>
    split_ifs at h
    cases h
    exact .drawn
  case h_3 => exact hwrite .insert h
  case h_4 => exact hwrite .number h
  case h_5 =>
    split_ifs at h with hfree
    cases h
    exact .committed hfree
  case h_6 =>
    obtain ⟨shipment, hget, heq⟩ := Option.map_eq_some_iff.mp h
    cases heq
    exact .refreshed hget
  case h_7 => cases h; exact .published
  case h_8 =>
    split_ifs at h with hpending
    cases h
    exact .rolledBack hpending
  case h_9 => cases h

def NoShipment (shipments : Shipments) (o : Int) : Prop := ∀ r ∈ shipments.rows, r.2.orderId ≠ o

/-- The shipment with the id is committed, and it is the order's. -/
def HasShipment (shipments : Shipments) (o id : Int) : Prop :=
  ∃ r ∈ shipments.rows, r.1 = id ∧ r.2.orderId = o

def Phase.Sound (shipments : Shipments) (o : Int) : Phase → Prop
  | .ready => True
  | .absent => True
  | .drawn id _ => id < shipments.next
  | .inserted id shipment => id < shipments.next ∧ shipment.orderId = o ∧ NoShipment shipments o
  | .numbered id shipment => id < shipments.next ∧ shipment.orderId = o ∧ NoShipment shipments o ∧
      ∃ year, shipment.trackingNumber = trackingNumber year id
  | .committed id => HasShipment shipments o id
  | .announcing own p => (∀ id, own = some id → HasShipment shipments o id) ∧
      ∃ r ∈ shipments.rows, p = shipmentCreated r
  | .finished own => ∀ id, own = some id → HasShipment shipments o id
  | .failed id index other => id < shipments.next ∧ index = .orderId ∧ HasShipment shipments o other
  | .rolledBack own => ∀ id, own = some id → id < shipments.next

/-- Two calls have drawn different ids, and hold uncommitted rows of different orders. -/
structure Call.Apart (c c' : Call) : Prop where
  key : ∀ id, c.phase.key = some id → c'.phase.key ≠ some id
  row : c.phase.row ≠ none → c'.phase.row ≠ none → c.orderId ≠ c'.orderId

theorem Call.Apart.symm {c c' : Call} (h : c.Apart c') : c'.Apart c :=
  ⟨fun id hid hid' => h.key id hid' hid, fun hrow hrow' => Ne.symm (h.row hrow' hrow)⟩

structure Db.Inv (d : Db) : Prop where
  sound : ∀ (i : Nat) c, d.calls[i]? = some c → c.phase.Sound d.shipments c.orderId
  apart : ∀ (i j : Nat) c c', i ≠ j → d.calls[i]? = some c → d.calls[j]? = some c' → c.Apart c'
  numbered : ∀ r ∈ d.shipments.rows, ∃ year, r.2.trackingNumber = trackingNumber year r.1
  writer : ∀ r ∈ d.shipments.rows, ∃ (i : Nat) (c : Call), d.calls[i]? = some c ∧
    c.phase.wrote = some r.1 ∧ c.orderId = r.2.orderId
  orders : ∀ r ∈ d.shipments.rows, ∀ r' ∈ d.shipments.rows, r.2.orderId = r'.2.orderId → r = r'
  published : ∀ p ∈ d.published, ∃ r ∈ d.shipments.rows, p = shipmentCreated r

theorem Phase.key_of_wrote {phase : Phase} {id : Int} (h : phase.wrote = some id) :
    phase.key = some id := by
  cases phase with
  | committed => exact h
  | announcing => exact h
  | finished => exact h
  | _ => cases h

theorem Phase.Sound.key_lt {shipments : Shipments} {o : Int} {phase : Phase}
    (h : phase.Sound shipments o) {id : Int} (hid : phase.key = some id) : id < shipments.next := by
  have hcommitted : HasShipment shipments o id → id < shipments.next := by
    rintro ⟨r, hr, rfl, -⟩
    exact shipments.bounded r hr
  cases phase with
  | ready => cases hid
  | absent => cases hid
  | drawn => cases hid; exact h
  | inserted => cases hid; exact h.1
  | numbered => cases hid; exact h.1
  | committed => cases hid; exact hcommitted h
  | announcing => exact hcommitted (h.1 id hid)
  | finished => exact hcommitted (h id hid)
  | failed => cases hid; exact h.1
  | rolledBack => exact h id hid

/-- A committed row belongs to no call but its writer. -/
theorem Db.Inv.key_notMem {d : Db} (hinv : d.Inv) {i : Nat} {c : Call} (hc : d.calls[i]? = some c)
    {id : Int} (hkey : c.phase.key = some id) (hwrote : c.phase.wrote = none) :
    id ∉ d.shipments.rows.map Prod.fst := by
  intro hmem
  obtain ⟨r, hr, rfl⟩ := List.mem_map.mp hmem
  obtain ⟨j, c', hc', hwrote', -⟩ := hinv.writer r hr
  by_cases hij : i = j
  · subst hij
    cases Option.some.inj (hc.symm.trans hc')
    rw [hwrote] at hwrote'
    cases hwrote'
  · exact (hinv.apart i j c c' hij hc hc').key _ hkey (Phase.key_of_wrote hwrote')

theorem Db.Inv.law {d : Db} (hinv : d.Inv) : d.Law := by
  refine ⟨hinv.orders, fun r hr r' hr' heq => ?_, fun r hr => ?_,
    fun i c id index other hc hphase => ?_, fun i c id hc hphase => ?_,
    fun i c id index other hc hphase => ?_, fun p hp p' hp' horder => ?_⟩
  · obtain ⟨year, htracking⟩ := hinv.numbered r hr
    obtain ⟨year', htracking'⟩ := hinv.numbered r' hr'
    have hnumbers : trackingNumber year r.1 = trackingNumber year' r'.1 := by
      rw [← htracking, ← htracking', heq]
    exact d.shipments.mem_rows_unique hr hr' (trackingNumber_injective hnumbers)
  · obtain ⟨year, htracking⟩ := hinv.numbered r hr
    rw [htracking]
    exact trackingNumber_ne_empty year r.1
  · exact hinv.key_notMem hc (by rw [hphase]; rfl) (by rw [hphase]; rfl)
  · exact hinv.key_notMem hc (by rw [hphase]; rfl) (by rw [hphase]; rfl)
  · have hsound := hinv.sound i c hc
    rw [hphase] at hsound
    obtain ⟨-, hindex, r, hr, hother, horder⟩ := hsound
    obtain ⟨j, c', hc', hwrote, hsame⟩ := hinv.writer r hr
    refine ⟨hindex, j, c', r, ?_, hc', hsame.trans horder, hother ▸ hwrote, hr, hother, horder⟩
    rintro rfl
    cases Option.some.inj (hc.symm.trans hc')
    rw [hphase] at hwrote
    cases hwrote
  · obtain ⟨r, hr, rfl⟩ := hinv.published p hp
    obtain ⟨r', hr', rfl⟩ := hinv.published p' hp'
    rw [hinv.orders r hr r' hr' horder]

/-- The rows stay, but for their status, and keys are only handed out. -/
structure Grows (t t' : Shipments) : Prop where
  next : t.next ≤ t'.next
  rows : ∀ r ∈ t.rows, ∃ r' ∈ t'.rows, shipmentCreated r' = shipmentCreated r

theorem Grows.refl (t : Shipments) : Grows t t := ⟨Int.le_refl _, fun r hr => ⟨r, hr, rfl⟩⟩

theorem Grows.hasShipment {t t' : Shipments} (hgrow : Grows t t') {o id : Int}
    (h : HasShipment t o id) : HasShipment t' o id := by
  obtain ⟨r, hr, rfl, rfl⟩ := h
  obtain ⟨r', hr', heq⟩ := hgrow.rows r hr
  injection heq with horder hid
  exact ⟨r', hr', hid, horder⟩

theorem Phase.Sound.grow {t t' : Shipments} (hgrow : Grows t t') {o : Int} {phase : Phase}
    (hnone : phase.row ≠ none → NoShipment t o → NoShipment t' o) (h : phase.Sound t o) :
    phase.Sound t' o := by
  have hnext := hgrow.next
  cases phase with
  | ready => trivial
  | absent => trivial
  | drawn => exact Int.lt_of_lt_of_le h hnext
  | inserted =>
    exact ⟨Int.lt_of_lt_of_le h.1 hnext, h.2.1, hnone (by simp [Phase.row]) h.2.2⟩
  | numbered =>
    exact ⟨Int.lt_of_lt_of_le h.1 hnext, h.2.1, hnone (by simp [Phase.row]) h.2.2.1, h.2.2.2⟩
  | committed => exact hgrow.hasShipment h
  | announcing =>
    obtain ⟨hown, r, hr, rfl⟩ := h
    obtain ⟨r', hr', heq⟩ := hgrow.rows r hr
    exact ⟨fun id hid => hgrow.hasShipment (hown id hid), r', hr', heq.symm⟩
  | finished => exact fun id hid => hgrow.hasShipment (h id hid)
  | failed => exact ⟨Int.lt_of_lt_of_le h.1 hnext, h.2.1, hgrow.hasShipment h.2.2⟩
  | rolledBack => exact fun id hid => Int.lt_of_lt_of_le (h id hid) hnext

theorem grows_updateStatus (t : Shipments) (id : Int) (status : ShipmentStatus) :
    Grows t (updateStatus t id status) := by
  refine ⟨Int.le_refl _, fun r hr => ⟨_, List.mem_map_of_mem hr, ?_⟩⟩
  by_cases h : r.1 = id
  · rw [if_pos h]
    rfl
  · rw [if_neg h]

theorem mem_updateStatus {t : Shipments} {id : Int} {status : ShipmentStatus} {r : Int × Shipment}
    (hr : r ∈ (updateStatus t id status).rows) :
    ∃ old ∈ t.rows, r.1 = old.1 ∧ r.2.orderId = old.2.orderId ∧
      r.2.trackingNumber = old.2.trackingNumber := by
  obtain ⟨old, hold, rfl⟩ := List.mem_map.mp hr
  refine ⟨old, hold, ?_⟩
  split_ifs <;> exact ⟨rfl, rfl, rfl⟩

theorem Db.Inv.updateStatus {d : Db} (hinv : d.Inv) (id : Int) (status : ShipmentStatus) :
    Db.Inv { d with shipments := Shipping.updateStatus d.shipments id status } := by
  have hgrow := grows_updateStatus d.shipments id status
  refine ⟨fun i c hc => (hinv.sound i c hc).grow hgrow fun _ hnone r hr => ?_, hinv.apart,
    fun r hr => ?_, fun r hr => ?_, fun r hr r' hr' heq => ?_, fun p hp => ?_⟩
  · obtain ⟨old, hold, -, horder, -⟩ := mem_updateStatus hr
    exact horder ▸ hnone old hold
  · obtain ⟨old, hold, hid, -, htracking⟩ := mem_updateStatus hr
    rw [hid, htracking]
    exact hinv.numbered old hold
  · obtain ⟨old, hold, hid, horder, -⟩ := mem_updateStatus hr
    rw [hid, horder]
    exact hinv.writer old hold
  · obtain ⟨old, hold, hid, horder, -⟩ := mem_updateStatus hr
    obtain ⟨old', hold', hid', horder', -⟩ := mem_updateStatus hr'
    rw [horder, horder'] at heq
    refine SerialTable.mem_rows_unique _ hr hr' ?_
    rw [hid, hid', hinv.orders old hold old' hold' heq]
  · obtain ⟨r, hr, rfl⟩ := hinv.published p hp
    obtain ⟨r', hr', heq⟩ := hgrow.rows r hr
    exact ⟨r', hr', heq.symm⟩

theorem Db.Inv.deliver {d : Db} (hinv : d.Inv) (o : Int) :
    Db.Inv { d with calls := d.calls ++ [⟨o, .ready⟩] } := by
  have hapart : ∀ c : Call, c.Apart ⟨o, .ready⟩ := fun c =>
    ⟨fun id _ hid => (by cases hid), fun _ hrow => absurd rfl hrow⟩
  refine ⟨fun i c hc => ?_, fun i j c c' hij hc hc' => ?_, hinv.numbered, fun r hr => ?_,
    hinv.orders,
    hinv.published⟩
  · rcases Pool.getElem?_snoc_cases hc with ⟨-, rfl⟩ | hold
    · trivial
    · exact hinv.sound i c hold
  · rcases Pool.getElem?_snoc_cases hc with ⟨-, rfl⟩ | hold
    · exact (hapart c').symm
    · rcases Pool.getElem?_snoc_cases hc' with ⟨-, rfl⟩ | hold'
      · exact hapart c
      · exact hinv.apart i j c c' hij hold hold'
  · obtain ⟨i, c, hc, hwrote⟩ := hinv.writer r hr
    refine ⟨i, c, ?_, hwrote⟩
    rw [List.getElem?_append_left (List.getElem?_eq_some_iff.mp hc).1]
    exact hc

/-- What one call must show when it goes on to another phase. -/
theorem Db.Inv.set {d : Db} (hinv : d.Inv) {i : Nat} {c : Call} (hc : d.calls[i]? = some c)
    {t : Shipments} {phase : Phase} {ps : List Payload} (hgrow : Grows d.shipments t)
    (hsound : phase.Sound t c.orderId)
    (hothers : ∀ o, o ≠ c.orderId ∨ c.phase.row = none → NoShipment d.shipments o → NoShipment t o)
    (hkey : ∀ id, phase.key = some id → c.phase.key = some id ∨ d.shipments.next ≤ id)
    (hrow : phase.row ≠ none → ∀ (j : Nat) c', j ≠ i → d.calls[j]? = some c' →
      c'.phase.row ≠ none → c.orderId ≠ c'.orderId)
    (hrows : ∀ r ∈ t.rows,
      (r ∈ d.shipments.rows ∧ (c.phase.wrote = some r.1 → phase.wrote = some r.1)) ∨
      ((∃ year, r.2.trackingNumber = trackingNumber year r.1) ∧ phase.wrote = some r.1 ∧
        r.2.orderId = c.orderId ∧ NoShipment d.shipments c.orderId))
    (hpublished : ∀ p ∈ ps, ∃ r ∈ t.rows, p = shipmentCreated r) :
    Db.Inv ⟨t, d.calls.set i ⟨c.orderId, phase⟩, d.published ++ ps⟩ := by
  have hlt : i < d.calls.length := (List.getElem?_eq_some_iff.mp hc).1
  have hapart : ∀ (j : Nat) c', j ≠ i → d.calls[j]? = some c' →
      Call.Apart ⟨c.orderId, phase⟩ c' := by
    intro j c' hj hc'
    refine ⟨fun id hid hid' => ?_, fun hmoved hother => hrow hmoved j c' hj hc' hother⟩
    rcases hkey id hid with hold | hnew
    · exact (hinv.apart i j c c' (Ne.symm hj) hc hc').key id hold hid'
    · have hbound := (hinv.sound j c' hc').key_lt hid'
      omega
  refine ⟨fun j c' hc' => ?_, fun j k c' c'' hjk hc' hc'' => ?_, fun r hr => ?_, fun r hr => ?_,
    fun r hr r' hr' heq => ?_, fun p hp => ?_⟩
  · rcases Pool.getElem?_set_cases hc' with ⟨-, rfl⟩ | ⟨hj, hold⟩
    · exact hsound
    · refine (hinv.sound j c' hold).grow hgrow fun hother => hothers _ ?_
      by_cases hmine : c.phase.row = none
      · exact .inr hmine
      · exact .inl ((hinv.apart j i c' c hj hold hc).row hother hmine)
  · rcases Pool.getElem?_set_cases hc' with ⟨rfl, rfl⟩ | ⟨hj, hold⟩
    · rcases Pool.getElem?_set_cases hc'' with ⟨rfl, -⟩ | ⟨hk, hold'⟩
      · exact absurd rfl hjk
      · exact hapart k c'' hk hold'
    · rcases Pool.getElem?_set_cases hc'' with ⟨rfl, rfl⟩ | ⟨hk, hold'⟩
      · exact (hapart j c' hj hold).symm
      · exact hinv.apart j k c' c'' hjk hold hold'
  · rcases hrows r hr with ⟨hold, -⟩ | ⟨hyear, -⟩
    · exact hinv.numbered r hold
    · exact hyear
  · have hself : (d.calls.set i ⟨c.orderId, phase⟩)[i]? = some ⟨c.orderId, phase⟩ := by
      rw [List.getElem?_set_self hlt]
    rcases hrows r hr with ⟨hold, hkeep⟩ | ⟨-, hwrote, horder, -⟩
    · obtain ⟨j, c', hc', hwrote, horder⟩ := hinv.writer r hold
      by_cases hj : j = i
      · subst hj
        cases Option.some.inj (hc.symm.trans hc')
        exact ⟨j, _, hself, hkeep hwrote, horder⟩
      · refine ⟨j, c', ?_, hwrote, horder⟩
        rw [List.getElem?_set_ne (Ne.symm hj)]
        exact hc'
    · exact ⟨i, _, hself, hwrote, horder.symm⟩
  · rcases hrows r hr with ⟨hold, -⟩ | ⟨-, hwrote, horder, hnone⟩
    · rcases hrows r' hr' with ⟨hold', -⟩ | ⟨-, -, horder', hnone'⟩
      · exact hinv.orders r hold r' hold' heq
      · exact absurd (heq.trans horder') (hnone' r hold)
    · rcases hrows r' hr' with ⟨hold', -⟩ | ⟨-, hwrote', -, -⟩
      · exact absurd (heq.symm.trans horder) (hnone r' hold')
      · exact t.mem_rows_unique hr hr' (Option.some.inj (hwrote.symm.trans hwrote'))
  · rcases List.mem_append.mp hp with hold | hnew
    · obtain ⟨r, hr, rfl⟩ := hinv.published p hold
      obtain ⟨r', hr', heq⟩ := hgrow.rows r hr
      exact ⟨r', hr', heq.symm⟩
    · exact hpublished p hnew

/-- A call that writes no shipment row keeps the table, but for the ids it draws. -/
theorem Db.Inv.set_same {d : Db} (hinv : d.Inv) {i : Nat} {c : Call} (hc : d.calls[i]? = some c)
    {phase : Phase} {ps : List Payload} (hsound : phase.Sound d.shipments c.orderId)
    (hkey : ∀ id, phase.key = some id → c.phase.key = some id)
    (hrow : phase.row ≠ none → ∀ (j : Nat) c', j ≠ i → d.calls[j]? = some c' →
      c'.phase.row ≠ none → c.orderId ≠ c'.orderId)
    (hwrote : ∀ id, c.phase.wrote = some id → phase.wrote = some id)
    (hpublished : ∀ p ∈ ps, ∃ r ∈ d.shipments.rows, p = shipmentCreated r) :
    Db.Inv ⟨d.shipments, d.calls.set i ⟨c.orderId, phase⟩, d.published ++ ps⟩ :=
  hinv.set hc (.refl _) hsound (fun _ _ h => h) (fun id hid => .inl (hkey id hid)) hrow
    (fun r hr => .inl ⟨hr, hwrote r.1⟩) hpublished

theorem Phase.key_of_row {phase : Phase} {row : Int × Shipment} (h : phase.row = some row) :
    phase.key = some row.1 := by
  cases phase with
  | inserted => cases h; rfl
  | numbered => cases h; rfl
  | _ => cases h

theorem Phase.Sound.row_orderId {shipments : Shipments} {o : Int} {phase : Phase}
    (h : phase.Sound shipments o) {row : Int × Shipment} (hrow : phase.row = some row) :
    row.2.orderId = o := by
  cases phase with
  | inserted => cases hrow; exact h.2.1
  | numbered => cases hrow; exact h.2.1
  | _ => cases hrow

/-- The row that a call writes is its order's, and no committed row has its number. -/
theorem Writes.drawn {o : Int} {phase written : Phase} {m : Move} {id : Int} {shipment : Shipment}
    (h : Writes o phase m id shipment written) {t : Shipments} (hsound : phase.Sound t o) :
    id < t.next ∧ shipment.orderId = o ∧ phase.key = some id ∧ phase.wrote = none ∧
      written.key = some id ∧ written.wrote = none ∧ (NoShipment t o → written.Sound t o) ∧
      (shipment.trackingNumber = "" ∨
        ∃ year, shipment.trackingNumber = trackingNumber year id) := by
  cases h with
  | insert =>
    exact ⟨hsound, rfl, rfl, rfl, rfl, rfl, fun hnone => ⟨hsound, rfl, hnone⟩, .inl rfl⟩
  | @number _ shipment year =>
    obtain ⟨hid, horder, -⟩ := hsound
    exact ⟨hid, horder, rfl, rfl, rfl, rfl, fun hnone => ⟨hid, horder, hnone, year, rfl⟩,
      .inr ⟨year, rfl⟩⟩

/-- Only the order id can be in the way. -/
theorem Db.Inv.conflict {d : Db} (hinv : d.Inv) {i : Nat} {c : Call} (hc : d.calls[i]? = some c)
    {written : Phase} {m : Move} {id : Int} {shipment : Shipment}
    (hwrites : Writes c.orderId c.phase m id shipment written) {index : Index} {other : Int}
    (h : Shipping.conflict d.shipments shipment = some (index, other)) :
    index = .orderId ∧ HasShipment d.shipments c.orderId other := by
  obtain ⟨-, horder, hkey, hwrote, -, -, -, htracking⟩ := hwrites.drawn (hinv.sound i c hc)
  obtain ⟨r, hr, rfl, ⟨rfl, hsame⟩ | ⟨rfl, hsame⟩⟩ := conflict_eq_some h
  · exact ⟨rfl, r, hr, rfl, hsame.trans horder⟩
  · obtain ⟨year, hyear⟩ := hinv.numbered r hr
    rcases htracking with hempty | ⟨year', hnumber⟩
    · exact absurd (hyear.symm.trans (hsame.trans hempty)) (trackingNumber_ne_empty year r.1)
    · have hid : r.1 = id := trackingNumber_injective (hyear.symm.trans (hsame.trans hnumber))
      exact absurd (List.mem_map.mpr ⟨r, hr, hid⟩) (hinv.key_notMem hc hkey hwrote)

/-- A write that nobody stands in the way of: no other call holds a row of the order. -/
theorem Db.Inv.written {d : Db} (hinv : d.Inv) {i : Nat} {o : Int} {phase written : Phase}
    {m : Move}
    {id : Int} {shipment : Shipment} (hc : d.calls[i]? = some ⟨o, phase⟩)
    (hwrites : Writes o phase m id shipment written) (hwaits : d.waits id shipment = false)
    (hconflict : Shipping.conflict d.shipments shipment = none) :
    Db.Inv ⟨d.shipments, d.calls.set i ⟨o, written⟩, d.published ++ []⟩ := by
  obtain ⟨-, horder, hkey, hwrote, hkey', -, hwritten, -⟩ := hwrites.drawn (hinv.sound i _ hc)
  have hfree : NoShipment d.shipments o :=
    fun r hr => horder ▸ (conflict_eq_none.mp hconflict r hr).1
  refine hinv.set_same hc (hwritten hfree) (fun id' hid => ?_) (fun _ j c' hj hc' hrow => ?_)
    (fun id' hid => ?_) (fun p hp => by cases hp)
  · rw [hkey, ← hkey', hid]
  · obtain ⟨row, hrow⟩ := Option.ne_none_iff_exists'.mp hrow
    have hid : row.1 ≠ id := by
      rintro rfl
      exact (hinv.apart i j _ c' (Ne.symm hj) hc hc').key _ hkey (Phase.key_of_row hrow)
    have hne := Db.orderId_of_not_waits hwaits hc' hrow hid
    rw [(hinv.sound j c' hc').row_orderId hrow, horder] at hne
    exact Ne.symm hne
  · rw [hwrote] at hid
    cases hid

/-- A commit adds the row of an order that has none. -/
theorem Db.Inv.committed {d : Db} (hinv : d.Inv) {i : Nat} {o id : Int} {shipment : Shipment}
    (hc : d.calls[i]? = some ⟨o, .numbered id shipment⟩) (hfree : d.shipments.Free id) :
    Db.Inv ⟨d.shipments.place id shipment hfree, d.calls.set i ⟨o, .committed id⟩,
      d.published ++ []⟩ := by
  obtain ⟨-, horder, hnone, hyear⟩ := hinv.sound i _ hc
  have hgrow : Grows d.shipments (d.shipments.place id shipment hfree) :=
    ⟨Int.le_refl _, fun r hr => ⟨r, List.mem_append_left _ hr, rfl⟩⟩
  have hnew : (id, shipment) ∈ (d.shipments.place id shipment hfree).rows :=
    List.mem_append_right _ (List.mem_singleton_self _)
  refine hinv.set hc hgrow ⟨_, hnew, rfl, horder⟩ (fun o ho hno r hr => ?_)
    (fun id' hid => .inl hid)
    (fun hne => absurd rfl hne) (fun r hr => ?_) (fun p hp => by cases hp)
  · rcases List.mem_append.mp hr with hold | hlast
    · exact hno r hold
    · rw [List.mem_singleton.mp hlast]
      rcases ho with hne | hrow
      · exact fun heq => hne (heq.symm.trans horder)
      · cases hrow
  · rcases List.mem_append.mp hr with hold | hlast
    · exact .inl ⟨hold, fun hwrote => by cases hwrote⟩
    · rw [List.mem_singleton.mp hlast]
      exact .inr ⟨hyear, rfl, horder, hnone⟩

theorem Db.Inv.moved {d : Db} (hinv : d.Inv) {i : Nat} {o : Int} {phase phase' : Phase}
    (hc : d.calls[i]? = some ⟨o, phase⟩) {m : Move} {t : Shipments} {ps : List Payload}
    (h : Moved d o phase m t phase' ps) :
    Db.Inv ⟨t, d.calls.set i ⟨o, phase'⟩, d.published ++ ps⟩ := by
  have hsound := hinv.sound i _ hc
  have hnil : ∀ p ∈ ([] : List Payload), ∃ r ∈ d.shipments.rows, p = shipmentCreated r := by
    intro p hp
    cases hp
  cases h with
  | @found row hfound =>
    have hmem : row ∈ d.shipments.rows := (List.mem_filter.mp (List.mem_of_head? hfound)).1
    exact hinv.set_same hc ⟨fun id hid => (by cases hid), row, hmem, rfl⟩
      (fun id hid => by cases hid) (fun hne => absurd rfl hne) (fun id hid => by cases hid) hnil
  | absent hnone =>
    exact hinv.set_same hc trivial (fun id hid => by cases hid) (fun hne => absurd rfl hne)
      (fun id hid => by cases hid) hnil
  | drawn =>
    have hlt : d.shipments.next < d.shipments.draw.next := Int.lt_succ _
    refine hinv.set hc ⟨Int.le_of_lt hlt, fun r hr => ⟨r, hr, rfl⟩⟩ hlt (fun _ _ h => h)
      (fun id hid => ?_) (fun hne => absurd rfl hne)
      (fun r hr => .inl ⟨hr, fun hwrote => by cases hwrote⟩) hnil
    cases hid
    exact .inr (Int.le_refl _)
  | written hwrites hwaits hconflict => exact hinv.written hc hwrites hwaits hconflict
  | @refused _ _ id shipment written index other hwrites hconflict =>
    obtain ⟨hlt, -, hkey, hwrote, -⟩ := hwrites.drawn hsound
    obtain ⟨hindex, hother⟩ := hinv.conflict hc hwrites hconflict
    refine hinv.set_same hc ⟨hlt, hindex, hother⟩ (fun id' hid => ?_) (fun hne => absurd rfl hne)
      (fun id' hid => ?_) hnil
    · cases hid
      exact hkey
    · rw [hwrote] at hid
      cases hid
  | committed hfree => exact hinv.committed hc hfree
  | @refreshed id shipment hget =>
    refine hinv.set_same hc ⟨fun id' hid => ?_, _, SerialTable.mem_rows_of_get? hget, rfl⟩
      (fun id' hid => hid) (fun hne => absurd rfl hne) (fun id' hid => hid) hnil
    cases hid
    exact hsound
  | published =>
    refine hinv.set_same hc hsound.1 (fun id' hid => hid) (fun hne => absurd rfl hne)
      (fun id' hid => hid) fun p hp => ?_
    rw [List.mem_singleton.mp hp]
    exact hsound.2
  | rolledBack hpending =>
    refine hinv.set_same hc (fun id' hid => hsound.key_lt hid) (fun id' hid => hid)
      (fun hne => absurd rfl hne) (fun id' hid => ?_) hnil
    cases phase with
    | committed => cases hpending
    | announcing => cases hpending
    | finished => cases hpending
    | _ => cases hid

theorem inv_empty : Db.empty.Inv := by
  refine ⟨fun i c hc => ?_, fun i j c c' _ hc => ?_, ?_, ?_, ?_, ?_⟩
  · cases hc
  · cases hc
  all_goals simp [Db.empty, SerialTable.empty]

theorem step_inv {d d' : Db} {a : Act} (hinv : d.Inv) (h : step d a = some d') : d'.Inv := by
  cases a with
  | deliver o =>
    cases h
    exact hinv.deliver o
  | updateStatus id status =>
    cases h
    exact hinv.updateStatus id status
  | call i m =>
    simp only [step] at h
    split at h
    · cases h
    · rename_i c hc
      obtain ⟨⟨t, phase, ps⟩, hadvance, rfl⟩ := Option.map_eq_some_iff.mp h
      exact hinv.moved hc (Db.advance_moved hadvance)

/-- Whatever the order of the steps of any number of calls: one shipment per order with a
number of its own, calls that fail only for another call of their order, and events
that agree. -/
theorem shipments_serialised (acts : List Act) (d : Db)
    (hrun : Transition.exec step .empty acts = some d) : d.Law :=
  (Transition.exec_invariant Db.Inv (fun _ _ _ => step_inv) inv_empty hrun).law

/-- Two handlers of order 1 overtake each other and the message comes again, while
order 2 is shipped in the next year. -/
def overlapping : List Act :=
  [.deliver 1, .deliver 1, .deliver 2,
    .call 0 .lookup, .call 1 .lookup, .call 2 .lookup,
    .call 0 (.draw "DHL"), .call 1 (.draw "UPS"), .call 2 (.draw "FedEx"),
    .call 0 .insert, .call 0 (.number 2026), .call 0 .commit, .call 1 .insert,
    .call 2 .insert, .call 2 (.number 2027), .call 2 .commit,
    .call 0 .refresh, .call 0 .publish, .deliver 1, .call 3 .lookup, .call 3 .publish]

theorem shipments_serialised_overlapping :
    ∃ d, Transition.exec step .empty overlapping = some d ∧ d.shipments.rows.length = 2 ∧
      d.calls[1]? = some ⟨1, .failed 2 .orderId 1⟩ ∧ d.published.length = 2 ∧ d.Law := by
  have hsome : (Transition.exec step .empty overlapping).isSome := by decide +kernel
  have hrows : ∀ d ∈ Transition.exec step .empty overlapping, d.shipments.rows.length = 2 ∧
      d.calls[1]? = some ⟨1, .failed 2 .orderId 1⟩ ∧ d.published.length = 2 := by
    decide +kernel
  obtain ⟨d, hd⟩ := Option.isSome_iff_exists.mp hsome
  obtain ⟨hlength, hfailed, hpublished⟩ := hrows d hd
  exact ⟨d, hd, hlength, hfailed, hpublished, shipments_serialised overlapping d hd⟩

/-- A call that nothing comes between inserts what `create_shipment` does. -/
theorem exec_uninterrupted {t t' : Shipments} {o : Int} {courier : String} {year : Nat}
    {row : Int × Shipment} (hcourier : courier ∈ couriers)
    (hnumbered : ∀ r ∈ t.rows, r.2.trackingNumber ≠ "")
    (h : insertShipment t o courier year = some (row, t')) :
    Transition.exec step ⟨t, [⟨o, .ready⟩], []⟩ [.call 0 .lookup, .call 0 (.draw courier),
      .call 0 .insert, .call 0 (.number year), .call 0 .commit] =
        some ⟨t', [⟨o, .committed row.1⟩], []⟩ := by
  unfold insertShipment at h
  dsimp only at h
  split_ifs at h with hfree
  cases h
  have hnone : existing t o = none := existing_eq_none.mpr hfree.1
  have horder : ∀ r ∈ t.rows, r.2.orderId ≠ o := fun r hr heq =>
    shipmentsOf_ne_nil.mpr ⟨r, hr, heq⟩ hfree.1
  have hinsert : conflict t.draw ⟨o, "", courier, .created⟩ = none :=
    conflict_eq_none.mpr fun r hr => ⟨horder r hr, hnumbered r hr⟩
  have hnumber : conflict t.draw ⟨o, trackingNumber year t.next, courier, .created⟩ = none :=
    conflict_eq_none.mpr fun r hr => ⟨horder r hr, hfree.2 r hr⟩
  simp [Transition.exec, step, Db.advance, Db.write, Db.waits, Phase.row, hnone, hcourier, hinsert,
    hnumber, t.free_draw, t.place_draw]

end OrderMesh.Shipping
