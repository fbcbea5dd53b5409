import Mathlib.Data.List.Basic

namespace Decimal

theorem value_zeros_digits (k n : Nat) :
    Nat.ofDigitChars 10 (List.replicate k '0' ++ Nat.toDigits 10 n) 0 = n := by
  rw [Nat.ofDigitChars_append, Nat.ofDigitChars_replicate_zero, Nat.mul_zero,
    Nat.ofDigitChars_ten_toDigits]

/-- Zeros in front of the digits do not hide the number. -/
theorem zeros_digits_injective {j k m n : Nat}
    (h : List.replicate j '0' ++ Nat.toDigits 10 m = List.replicate k '0' ++ Nat.toDigits 10 n) :
    m = n := by
  have hvalue := congrArg (fun cs => Nat.ofDigitChars 10 cs 0) h
  simpa only [value_zeros_digits] using hvalue

theorem notMem_digits {c : Char} (hc : c.isDigit = false) (n : Nat) : c ∉ Nat.toDigits 10 n := by
  intro hmem
  rw [Nat.isDigit_of_mem_toDigits (by decide) (by decide) hmem] at hc
  cases hc

theorem toList_natToString (n : Nat) : (toString n).toList = Nat.toDigits 10 n := Nat.toList_repr

theorem toList_toString (a : Int) :
    (toString a).toList = (if a < 0 then ['-'] else []) ++ Nat.toDigits 10 a.natAbs := by
  rw [Int.toString_eq_repr, Int.repr_eq_if]
  by_cases ha : a < 0
  · have habs : (-a).toNat = a.natAbs := by omega
    rw [if_neg (by omega), if_pos ha, habs, String.toList_append, Nat.toList_repr]
    rfl
  · have habs : a.toNat = a.natAbs := by omega
    rw [if_pos (by omega), if_neg ha, habs, Nat.toList_repr]
    rfl

/-- A sign in front of zeros and digits shows, and the number behind it. -/
theorem signed_injective {j k : Nat} {a b : Int}
    (h : (if a < 0 then ['-'] else []) ++ (List.replicate j '0' ++ Nat.toDigits 10 a.natAbs) =
      (if b < 0 then ['-'] else []) ++ (List.replicate k '0' ++ Nat.toDigits 10 b.natAbs)) :
    a = b := by
  have hdash : ∀ i n, '-' ∉ List.replicate i '0' ++ Nat.toDigits 10 n := by
    intro i n hmem
    rcases List.mem_append.mp hmem with hzero | hdigit
    · have heq := (List.mem_replicate.mp hzero).2
      cases heq
    · exact notMem_digits (by decide) n hdigit
  by_cases ha : a < 0
  · by_cases hb : b < 0
    · rw [if_pos ha, if_pos hb] at h
      have habs := zeros_digits_injective (List.append_cancel_left h)
      omega
    · rw [if_pos ha, if_neg hb] at h
      exact absurd (h ▸ List.mem_cons_self) (hdash k b.natAbs)
  · by_cases hb : b < 0
    · rw [if_neg ha, if_pos hb] at h
      exact absurd (h.symm ▸ List.mem_cons_self) (hdash j a.natAbs)
    · rw [if_neg ha, if_neg hb] at h
      have habs := zeros_digits_injective h
      omega

theorem toString_injective {a b : Int} (h : toString a = toString b) : a = b := by
  have hlist := congrArg String.toList h
  rw [toList_toString, toList_toString] at hlist
  exact signed_injective (j := 0) (k := 0) hlist

/-- A text with another character is not the text of a number. -/
theorem toString_ne {s : String} {c : Char} (hmem : c ∈ s.toList) (hc : c.isDigit = false)
    (hsign : c ≠ '-') (a : Int) : toString a ≠ s := by
  rintro rfl
  rw [toList_toString] at hmem
  rcases List.mem_append.mp hmem with hdash | hdigit
  · split_ifs at hdash
    · exact hsign (List.mem_singleton.mp hdash)
    · cases hdash
  · exact notMem_digits hc _ hdigit

/-- Texts between the same separators, which the first of them does not contain. -/
theorem split_separator {a b c d : List Char} {s : Char} (ha : s ∉ a) (hc : s ∉ c)
    (h : a ++ s :: b = c ++ s :: d) : a = c ∧ b = d := by
  induction a generalizing c with
  | nil =>
    cases c with
    | nil => exact ⟨rfl, (List.cons.inj h).2⟩
    | cons x xs => exact absurd ((List.cons.inj h).1 ▸ List.mem_cons_self) hc
  | cons y ys ih =>
    cases c with
    | nil => exact absurd ((List.cons.inj h).1 ▸ List.mem_cons_self) ha
    | cons x xs =>
      obtain ⟨hhead, htail⟩ := List.cons.inj h
      have hrec := ih (fun hm => ha (List.mem_cons_of_mem y hm))
        (fun hm => hc (List.mem_cons_of_mem x hm)) htail
      exact ⟨by rw [hhead, hrec.1], hrec.2⟩

end Decimal
