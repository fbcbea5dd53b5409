import OrderMesh.Library.Decimal

structure FixedPoint where
  coefficient : Int
  scale : Nat
  deriving DecidableEq

namespace FixedPoint

/-- The digits of a number, with zeros in front up to one more than `scale`. -/
def paddedDigits (scale n : Nat) : List Char :=
  List.replicate (scale + 1 - (Nat.toDigits 10 n).length) '0' ++ Nat.toDigits 10 n

/-- `str`: at least one digit before the point, and no point without decimals. Only a
scale above 6 would call for an exponent. -/
def text (d : FixedPoint) : String :=
  let digits := paddedDigits d.scale d.coefficient.natAbs
  let whole := digits.take (digits.length - d.scale)
  let decimals := digits.drop (digits.length - d.scale)
  String.ofList ((if d.coefficient < 0 then ['-'] else []) ++ whole ++
    if d.scale = 0 then [] else '.' :: decimals)

/-- The number that digits with a point among them denote. -/
def ofDigits (negative : Bool) (whole decimals : List Char) : Option FixedPoint :=
  if whole ++ decimals ≠ [] ∧ decimals.all Char.isDigit then
    let n := Nat.ofDigitChars 10 (whole ++ decimals) 0
    some ⟨if negative then -n else n, decimals.length⟩
  else none

def parseUnsigned (negative : Bool) (cs : List Char) : Option FixedPoint :=
  match cs.dropWhile Char.isDigit with
  | [] => ofDigits negative (cs.takeWhile Char.isDigit) []
  | '.' :: decimals => ofDigits negative (cs.takeWhile Char.isDigit) decimals
  | _ => none

def parseSigned : List Char → Option FixedPoint
  | '-' :: cs => parseUnsigned true cs
  | cs => parseUnsigned false cs

/-- The constructor `Decimal(text)`, without exponents; a zero has no sign. -/
def parse (s : String) : Option FixedPoint := parseSigned s.toList

theorem isDigit_paddedDigits {scale n : Nat} {c : Char} (h : c ∈ paddedDigits scale n) :
    c.isDigit = true := by
  rcases List.mem_append.mp h with hzero | hdigit
  · rw [(List.mem_replicate.mp hzero).2]
    rfl
  · exact Nat.isDigit_of_mem_toDigits (by decide) (by decide) hdigit

theorem scale_lt_length (scale n : Nat) : scale < (paddedDigits scale n).length := by
  rw [paddedDigits, List.length_append, List.length_replicate]
  omega

theorem takeWhile_of_all {p : Char → Bool} {l : List Char} (h : ∀ c ∈ l, p c = true)
    (rest : List Char) :
    (l ++ rest).takeWhile p = l ++ rest.takeWhile p ∧ (l ++ rest).dropWhile p = rest.dropWhile p :=
  ⟨List.takeWhile_append_of_pos h, List.dropWhile_append_of_pos h⟩

theorem parseUnsigned_digits (negative : Bool) {whole decimals : List Char} (hwhole : whole ≠ [])
    (hdigits : ∀ c ∈ whole ++ decimals, c.isDigit = true) (scale : Nat)
    (hscale : decimals.length = scale) :
    parseUnsigned negative (whole ++ if scale = 0 then [] else '.' :: decimals) =
      some ⟨if negative then -(Nat.ofDigitChars 10 (whole ++ decimals) 0 : Nat)
        else (Nat.ofDigitChars 10 (whole ++ decimals) 0 : Nat), scale⟩ := by
  have hfront : ∀ c ∈ whole, c.isDigit = true := fun c hc => hdigits c (List.mem_append_left _ hc)
  have hback : decimals.all Char.isDigit = true :=
    List.all_eq_true.mpr fun c hc => hdigits c (List.mem_append_right _ hc)
  have hne : whole ++ decimals ≠ [] := fun h => hwhole (List.append_eq_nil_iff.mp h).1
  unfold parseUnsigned
  by_cases hzero : scale = 0
  · have hnil : decimals = [] := List.eq_nil_of_length_eq_zero (hscale.trans hzero)
    obtain ⟨htake, hdrop⟩ := takeWhile_of_all hfront []
    rw [if_pos hzero, htake, hdrop]
    simp [ofDigits, hwhole, hnil, hzero]
  · obtain ⟨htake, hdrop⟩ := takeWhile_of_all hfront ('.' :: decimals)
    rw [if_neg hzero, htake, hdrop]
    simp [ofDigits, hne, hback, hscale]

theorem parseSigned_of_digit {c : Char} (hc : c.isDigit = true) (cs : List Char) :
    parseSigned (c :: cs) = parseUnsigned false (c :: cs) := by
  have hdash : c ≠ '-' := by
    rintro rfl
    cases hc
  unfold parseSigned
  split
  · rename_i heq
    exact absurd (List.cons.inj heq).1 hdash
  · rfl

/-- The digits before and after the point. -/
theorem text_eq (n : Int) (scale : Nat) : ∃ whole decimals, whole ≠ [] ∧ decimals.length = scale ∧
    (∀ c ∈ whole ++ decimals, c.isDigit = true) ∧
    Nat.ofDigitChars 10 (whole ++ decimals) 0 = n.natAbs ∧
    (text ⟨n, scale⟩).toList = (if n < 0 then ['-'] else []) ++
      (whole ++ if scale = 0 then [] else '.' :: decimals) := by
  have hlt := scale_lt_length scale n.natAbs
  have hsplit := List.take_append_drop ((paddedDigits scale n.natAbs).length - scale)
    (paddedDigits scale n.natAbs)
  refine ⟨(paddedDigits scale n.natAbs).take ((paddedDigits scale n.natAbs).length - scale),
    (paddedDigits scale n.natAbs).drop ((paddedDigits scale n.natAbs).length - scale),
    ?_, ?_, ?_, ?_, ?_⟩
  · intro hnil
    have hlen := congrArg List.length hnil
    rw [List.length_take, List.length_nil] at hlen
    omega
  · rw [List.length_drop]
    omega
  · rw [hsplit]
    exact fun c hc => isDigit_paddedDigits hc
  · rw [hsplit, paddedDigits, Decimal.value_zeros_digits]
  · simp only [text, String.toList_ofList, List.append_assoc]

/-- `Decimal(str(d))` is `d`, with its value and its scale. -/
theorem parse_text (d : FixedPoint) : parse d.text = some d := by
  obtain ⟨n, scale⟩ := d
  obtain ⟨whole, decimals, hwhole, hscale, hdigits, hvalue, htext⟩ := text_eq n scale
  have hparsed := fun negative => parseUnsigned_digits negative hwhole hdigits scale hscale
  rw [parse, htext]
  by_cases hneg : n < 0
  · have habs : (-(n.natAbs : Int)) = n := by omega
    rw [if_pos hneg, List.singleton_append, parseSigned, hparsed, hvalue, if_pos rfl, habs]
  · have habs : (n.natAbs : Int) = n := by omega
    obtain ⟨c, rest, rfl⟩ := List.exists_cons_of_ne_nil hwhole
    rw [if_neg hneg, List.nil_append, List.cons_append, parseSigned_of_digit (hdigits c (by simp)),
      ← List.cons_append, hparsed, hvalue, if_neg Bool.false_ne_true, habs]

end FixedPoint
