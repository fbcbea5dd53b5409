import Mathlib.Algebra.Group.Nat.Defs
import OrderMesh.Library.Decimal

namespace IntText

/-- The spaces that `int` takes off a text of Latin-1, some of them only if it is not ASCII. -/
def isSpace (ascii : Bool) (c : Char) : Bool :=
  0x09 ≤ c.toNat ∧ c.toNat ≤ 0x0d ∨ c.toNat = 0x20 ∨
    ascii = false ∧ (0x1c ≤ c.toNat ∧ c.toNat ≤ 0x1f ∨ c.toNat = 0x85 ∨ c.toNat = 0xa0)

def strip (cs : List Char) : List Char :=
  let space := isSpace (cs.all fun c => c.toNat < 0x80)
  ((cs.dropWhile space).reverse.dropWhile space).reverse

/-- The digits behind one that has been read. -/
def digitsFrom : Nat → List Char → Option Nat
  | value, [] => some value
  | value, '_' :: c :: cs =>
      if c.isDigit then digitsFrom (10 * value + (c.toNat - '0'.toNat)) cs else none
  | value, c :: cs =>
      if c.isDigit then digitsFrom (10 * value + (c.toNat - '0'.toNat)) cs else none

/-- `sys.get_int_max_str_digits()`. -/
def maxDigits : Nat := 4300

def natural : List Char → Option Nat
  | c :: cs =>
      if c.isDigit ∧ (c :: cs).countP Char.isDigit ≤ maxDigits then
        digitsFrom (c.toNat - '0'.toNat) cs
      else none
  | [] => none

def signed : List Char → Option Int
  | '-' :: cs => (natural cs).map fun n : Nat => -(n : Int)
  | '+' :: cs => (natural cs).map fun n : Nat => (n : Int)
  | cs => (natural cs).map fun n : Nat => (n : Int)

/-- `int(text)`; `none` where it raises a `ValueError`. -/
def int (text : String) : Option Int := signed (strip text.toList)

theorem not_space {c : Char} (h : c.isDigit = true ∨ c = '-') (ascii : Bool) :
    isSpace ascii c = false := by
  rcases h with hdigit | rfl
  · simp only [Char.isDigit, Bool.and_eq_true, decide_eq_true_eq, ge_iff_le,
      UInt32.le_iff_toNat_le] at hdigit
    have hlow : 48 ≤ c.toNat := hdigit.1
    have hhigh : c.toNat ≤ 57 := hdigit.2
    simp only [isSpace, decide_eq_false_iff_not]
    omega
  · cases ascii <;> decide

theorem digitsFrom_eq {cs : List Char} (h : ∀ c ∈ cs, c.isDigit = true) (value : Nat) :
    digitsFrom value cs = some (Nat.ofDigitChars 10 cs value) := by
  induction cs generalizing value with
  | nil => simp [digitsFrom]
  | cons c cs ih =>
    have hdigit := h c List.mem_cons_self
    have hscore : c ≠ '_' := by
      rintro rfl
      cases hdigit
    rw [digitsFrom, if_pos hdigit, ih (fun x hx => h x (List.mem_cons_of_mem c hx))]
    · rw [Nat.ofDigitChars_cons]
    · intro x xs heq
      exact absurd heq hscore

theorem digit_le {c : Char} (h : c.isDigit = true) : c.toNat - '0'.toNat ≤ 9 := by
  simp only [Char.isDigit, Bool.and_eq_true, decide_eq_true_eq, UInt32.le_iff_toNat_le] at h
  have hhigh : c.toNat ≤ 57 := h.2
  show c.toNat - 48 ≤ 9
  omega

/-- Digits behind a value say what comes to it. -/
theorem digitsFrom_lt {cs : List Char} {value n : Nat} (h : digitsFrom value cs = some n) :
    n < (value + 1) * 10 ^ cs.countP Char.isDigit := by
  induction value, cs using digitsFrom.induct generalizing n with
  | case1 value =>
    cases h
    simp
  | case2 value c cs hdigit ih =>
    rw [digitsFrom, if_pos hdigit] at h
    have hrest := ih h
    have hlast := digit_le hdigit
    have hscore : ('_' :: c :: cs).countP Char.isDigit = cs.countP Char.isDigit + 1 := by
      rw [List.countP_cons_of_neg (by decide), List.countP_cons_of_pos hdigit]
    rw [hscore, Nat.pow_succ', ← Nat.mul_assoc]
    exact Nat.lt_of_lt_of_le hrest (Nat.mul_le_mul_right _ (by omega))
  | case3 value c cs hdigit =>
    rw [digitsFrom, if_neg hdigit] at h
    cases h
  | case4 value c cs hscore hdigit ih =>
    rw [digitsFrom, if_pos hdigit] at h
    · have hrest := ih h
      have hlast := digit_le hdigit
      rw [List.countP_cons_of_pos hdigit, Nat.pow_succ', ← Nat.mul_assoc]
      exact Nat.lt_of_lt_of_le hrest (Nat.mul_le_mul_right _ (by omega))
    · exact hscore
  | case5 value c cs hscore hdigit =>
    rw [digitsFrom, if_neg hdigit] at h
    · cases h
    · exact hscore

theorem natural_lt {cs : List Char} {n : Nat} (h : natural cs = some n) : n < 10 ^ maxDigits := by
  cases cs with
  | nil => cases h
  | cons c cs =>
    rw [natural] at h
    split_ifs at h with hread
    obtain ⟨hdigit, hcount⟩ := hread
    have hlt := digitsFrom_lt h
    have hfirst := digit_le hdigit
    rw [List.countP_cons_of_pos hdigit] at hcount
    calc n < (c.toNat - '0'.toNat + 1) * 10 ^ cs.countP Char.isDigit := hlt
      _ ≤ 10 * 10 ^ cs.countP Char.isDigit := Nat.mul_le_mul_right _ (by omega)
      _ = 10 ^ (cs.countP Char.isDigit + 1) := (Nat.pow_succ' ..).symm
      _ ≤ 10 ^ maxDigits := Nat.pow_le_pow_right (by decide) hcount

theorem natural_toDigits (n : Nat) :
    natural (Nat.toDigits 10 n) = if n < 10 ^ maxDigits then some n else none := by
  have hdigits : ∀ c ∈ Nat.toDigits 10 n, c.isDigit = true :=
    fun c hc => Nat.isDigit_of_mem_toDigits (by decide) (by decide) hc
  have hvalue := Nat.ofDigitChars_ten_toDigits (n := n)
  have hcount : (Nat.toDigits 10 n).countP Char.isDigit ≤ maxDigits ↔ n < 10 ^ maxDigits := by
    rw [List.countP_eq_length.mpr hdigits]
    exact Nat.length_toDigits_le_iff (by decide) (by decide)
  cases hcs : Nat.toDigits 10 n with
  | nil => exact absurd hcs Nat.toDigits_ne_nil
  | cons c cs =>
    rw [hcs] at hdigits hvalue hcount
    have hfirst : c.isDigit = true := hdigits c List.mem_cons_self
    have hrest : digitsFrom (c.toNat - '0'.toNat) cs = some n := by
      rw [digitsFrom_eq fun x hx => hdigits x (List.mem_cons_of_mem c hx), ← hvalue]
      simp [Nat.ofDigitChars_cons]
    simp only [natural, hfirst, hcount, hrest, true_and]

/-- A text without spaces at its ends stays as it is. -/
theorem strip_eq {cs : List Char} (h : ∀ c ∈ cs, ∀ ascii, isSpace ascii c = false) :
    strip cs = cs := by
  have hdrop : ∀ ds : List Char, (∀ c ∈ ds, ∀ ascii, isSpace ascii c = false) →
      ∀ ascii, ds.dropWhile (isSpace ascii) = ds := by
    intro ds hds ascii
    cases ds with
    | nil => rfl
    | cons d ds => exact List.dropWhile_cons_of_neg (by simp [hds d List.mem_cons_self ascii])
  have hreverse := hdrop cs.reverse fun c hc => h c (List.mem_reverse.mp hc)
  simp only [strip, hdrop cs h, hreverse, List.reverse_reverse]

theorem signed_digits {cs : List Char} (h : ∀ c ∈ cs, c.isDigit = true) :
    signed cs = (natural cs).map fun n : Nat => (n : Int) := by
  unfold signed
  split
  · cases h '-' List.mem_cons_self
  · cases h '+' List.mem_cons_self
  · rfl

/-- `int(str(n))` is `n`, unless `n` has too many digits. -/
theorem int_toString (n : Int) :
    int (toString n) = if n.natAbs < 10 ^ maxDigits then some n else none := by
  have hdigits : ∀ c ∈ Nat.toDigits 10 n.natAbs, c.isDigit = true :=
    fun c hc => Nat.isDigit_of_mem_toDigits (by decide) (by decide) hc
  have hspaces : ∀ c ∈ (toString n).toList, ∀ ascii, isSpace ascii c = false := by
    intro c hc
    rw [Decimal.toList_toString] at hc
    cases List.mem_append.mp hc with
    | inl hsign =>
      split_ifs at hsign
      · exact not_space (.inr (List.mem_singleton.mp hsign))
      · cases hsign
    | inr hdigit => exact not_space (.inl (hdigits c hdigit))
  rw [int, strip_eq hspaces, Decimal.toList_toString]
  by_cases hneg : n < 0
  · have habs : -(n.natAbs : Int) = n := by omega
    rw [if_pos hneg, List.singleton_append]
    show (natural _).map _ = _
    rw [natural_toDigits, apply_ite (Option.map _), Option.map_some, Option.map_none, habs]
  · have habs : (n.natAbs : Int) = n := by omega
    rw [if_neg hneg, List.nil_append, signed_digits hdigits, natural_toDigits,
      apply_ite (Option.map _), Option.map_some, Option.map_none, habs]

theorem signed_lt {cs : List Char} {n : Int} (h : signed cs = some n) :
    n.natAbs < 10 ^ maxDigits := by
  have hsigned : ∃ ds m, natural ds = some m ∧ n.natAbs = m := by
    unfold signed at h
    split at h
    · obtain ⟨m, hm, rfl⟩ := Option.map_eq_some_iff.mp h
      exact ⟨_, m, hm, by omega⟩
    · obtain ⟨m, hm, rfl⟩ := Option.map_eq_some_iff.mp h
      exact ⟨_, m, hm, by omega⟩
    · obtain ⟨m, hm, rfl⟩ := Option.map_eq_some_iff.mp h
      exact ⟨_, m, hm, by omega⟩
  obtain ⟨ds, m, hm, heq⟩ := hsigned
  rw [heq]
  exact natural_lt hm

/-- What `int` has read it reads again from its decimal text. -/
theorem int_toString_of_int {text : String} {n : Int} (h : int text = some n) :
    int (toString n) = some n := by
  rw [int_toString, if_pos (signed_lt h)]

end IntText
