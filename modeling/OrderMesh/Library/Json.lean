import Mathlib.Data.Nat.Init
import Mathlib.Order.Basic
import OrderMesh.Library.Decimal

/-- A value of JSON; of two fields of one name the last one counts. -/
inductive Json (δ : Type)
  | null
  | bool (b : Bool)
  | int (n : Int)
  | str (s : String)
  | arr (items : List (Json δ))
  | obj (fields : List (String × Json δ))
  | other (x : δ)

namespace Json

variable {δ ε : Type}

/-- The value of a name of an object. -/
def get? : Json δ → String → Option (Json δ)
  | .obj fields, name => (fields.reverse.find? fun f => f.1 = name).map Prod.snd
  | _, _ => none

def hexDigits (n : Nat) : List Char :=
  [n / 4096 % 16, n / 256 % 16, n / 16 % 16, n % 16].map Nat.digitChar

def escapeUnit (n : Nat) : List Char := '\\' :: 'u' :: hexDigits n

def highSurrogate (n : Nat) : Nat := 0xd800 + (n - 0x10000) / 0x400

def lowSurrogate (n : Nat) : Nat := 0xdc00 + (n - 0x10000) % 0x400

def joinSurrogates (high low : Nat) : Nat := 0x10000 + (high - 0xd800) * 0x400 + (low - 0xdc00)

def IsHigh (n : Nat) : Prop := 0xd800 ≤ n ∧ n < 0xdc00

def IsLow (n : Nat) : Prop := 0xdc00 ≤ n ∧ n < 0xe000

instance (n : Nat) : Decidable (IsHigh n) := inferInstanceAs (Decidable (_ ∧ _))

instance (n : Nat) : Decidable (IsLow n) := inferInstanceAs (Decidable (_ ∧ _))

/-- Only the printable characters of ASCII stand for themselves. -/
def escapeChar (c : Char) : List Char :=
  if c = '"' then ['\\', '"']
  else if c = '\\' then ['\\', '\\']
  else if c = '\n' then ['\\', 'n']
  else if c = '\r' then ['\\', 'r']
  else if c = '\t' then ['\\', 't']
  else if c = '\x0c' then ['\\', 'f']
  else if c = '\x08' then ['\\', 'b']
  else if 0x20 ≤ c.toNat ∧ c.toNat ≤ 0x7e then [c]
  else if c.toNat < 0x10000 then escapeUnit c.toNat
  else escapeUnit (highSurrogate c.toNat) ++ escapeUnit (lowSurrogate c.toNat)

def encodeString (s : String) : List Char := '"' :: (s.toList.flatMap escapeChar ++ ['"'])

section

variable (default : δ → String)

mutual

def encode : Json δ → List Char
  | .null => ['n', 'u', 'l', 'l']
  | .bool true => ['t', 'r', 'u', 'e']
  | .bool false => ['f', 'a', 'l', 's', 'e']
  | .int n => (toString n).toList
  | .str s => encodeString s
  | .arr [] => ['[', ']']
  | .arr (item :: items) => '[' :: (encode item ++ encodeItems items)
  | .obj [] => ['\x7b', '\x7d']
  | .obj ((name, value) :: fields) =>
      '\x7b' :: (encodeString name ++ ':' :: ' ' :: (encode value ++ encodeFields fields))
  | .other x => encodeString (default x)

/-- The items after the first, up to the closing bracket. -/
def encodeItems : List (Json δ) → List Char
  | [] => [']']
  | item :: items => ',' :: ' ' :: (encode item ++ encodeItems items)

def encodeFields : List (String × Json δ) → List Char
  | [] => ['\x7d']
  | (name, value) :: fields =>
      ',' :: ' ' :: (encodeString name ++ ':' :: ' ' :: (encode value ++ encodeFields fields))

end

/-- `json.dumps(value, default=default)`. -/
def dumps (v : Json δ) : String := String.ofList (encode default v)

mutual

/-- The value with the texts of its unknown leaves. -/
def defaulted : Json δ → Json ε
  | .null => .null
  | .bool b => .bool b
  | .int n => .int n
  | .str s => .str s
  | .arr items => .arr (defaultedItems items)
  | .obj fields => .obj (defaultedFields fields)
  | .other x => .str (default x)

def defaultedItems : List (Json δ) → List (Json ε)
  | [] => []
  | item :: items => defaulted item :: defaultedItems items

def defaultedFields : List (String × Json δ) → List (String × Json ε)
  | [] => []
  | (name, value) :: fields => (name, defaulted value) :: defaultedFields fields

end

end

def isSpace (c : Char) : Bool := c = ' ' ∨ c = '\t' ∨ c = '\n' ∨ c = '\r'

def skipSpace (cs : List Char) : List Char := cs.dropWhile isSpace

def hexValue (c : Char) : Option Nat :=
  if '0' ≤ c ∧ c ≤ '9' then some (c.toNat - 48)
  else if 'a' ≤ c ∧ c ≤ 'f' then some (c.toNat - 87)
  else if 'A' ≤ c ∧ c ≤ 'F' then some (c.toNat - 55)
  else none

def readUnit : List Char → Option (Nat × List Char)
  | a :: b :: c :: d :: rest => do
      return (4096 * (← hexValue a) + 256 * (← hexValue b) + 16 * (← hexValue c) + (← hexValue d),
        rest)
  | _ => none

def unescape (c : Char) : Option Char :=
  if c = '"' ∨ c = '\\' ∨ c = '/' then some c
  else if c = 'b' then some '\x08'
  else if c = 'f' then some '\x0c'
  else if c = 'n' then some '\n'
  else if c = 'r' then some '\r'
  else if c = 't' then some '\t'
  else none

/-- What follows `\u`. A surrogate without its other half has no character here. -/
def readEscaped (cs : List Char) : Option (Char × List Char) := do
  let (n, rest) ← readUnit cs
  if IsHigh n then
    match rest with
    | '\\' :: 'u' :: rest => do
        let (m, rest) ← readUnit rest
        if IsLow m then return (Char.ofNat (joinSurrogates n m), rest) else none
    | _ => none
  else if IsLow n then none
  else return (Char.ofNat n, rest)

/-- One character of a string, which ends at a bare quote. -/
def readChar : List Char → Option (Char × List Char)
  | '\\' :: 'u' :: rest => readEscaped rest
  | '\\' :: c :: rest => (unescape c).map fun c => (c, rest)
  | c :: rest => if c = '\\' ∨ c = '"' ∨ c.toNat < 0x20 then none else some (c, rest)
  | [] => none

def parseChars : Nat → List Char → Option (List Char × List Char)
  | _, '"' :: rest => some ([], rest)
  | fuel + 1, cs => do
      let (c, rest) ← readChar cs
      let (chars, rest) ← parseChars fuel rest
      return (c :: chars, rest)
  | 0, _ => none

/-- A string after its first quote. -/
def parseString (cs : List Char) : Option (String × List Char) :=
  (parseChars cs.length cs).map fun p => (String.ofList p.1, p.2)

/-- A number without sign. A leading zero ends it; one with a fraction or an exponent is a float,
which is left out. -/
def parseNatural (cs : List Char) : Option (Nat × List Char) :=
  let digits := cs.takeWhile Char.isDigit
  let rest := cs.dropWhile Char.isDigit
  if digits = [] then none
  else if digits.head? = some '0' ∧ digits.length ≠ 1 then some (0, cs.tail)
  else if rest.head? = some '.' ∨ rest.head? = some 'e' ∨ rest.head? = some 'E' then none
  else some (Nat.ofDigitChars 10 digits 0, rest)

def parseNumber : List Char → Option (Int × List Char)
  | '-' :: cs => (parseNatural cs).map fun p => (-(p.1 : Int), p.2)
  | cs => (parseNatural cs).map fun p => ((p.1 : Int), p.2)

mutual

def parseValue : Nat → List Char → Option (Json δ × List Char)
  | fuel + 1, c :: cs =>
      if c = '"' then (parseString cs).map fun p => (.str p.1, p.2)
      else if c = '[' then
        match skipSpace cs with
        | ']' :: rest => some (.arr [], rest)
        | cs => (parseItems fuel cs).map fun p => (.arr p.1, p.2)
      else if c = '\x7b' then
        match skipSpace cs with
        | '\x7d' :: rest => some (.obj [], rest)
        | cs => (parseFields fuel cs).map fun p => (.obj p.1, p.2)
      else if c = 'n' then (cs.dropPrefix? ['u', 'l', 'l']).map fun rest => (.null, rest)
      else if c = 't' then (cs.dropPrefix? ['r', 'u', 'e']).map fun rest => (.bool true, rest)
      else if c = 'f' then (cs.dropPrefix? ['a', 'l', 's', 'e']).map fun rest => (.bool false, rest)
      else (parseNumber (c :: cs)).map fun p => (.int p.1, p.2)
  | _, _ => none

def parseItems : Nat → List Char → Option (List (Json δ) × List Char)
  | fuel + 1, cs => do
      let (item, rest) ← parseValue fuel cs
      match skipSpace rest with
      | ']' :: rest => return ([item], rest)
      | ',' :: rest => do
          let (items, rest) ← parseItems fuel (skipSpace rest)
          return (item :: items, rest)
      | _ => none
  | 0, _ => none

def parseFields : Nat → List Char → Option (List (String × Json δ) × List Char)
  | fuel + 1, '"' :: cs => do
      let (name, rest) ← parseString cs
      match skipSpace rest with
      | ':' :: rest => do
          let (value, rest) ← parseValue fuel (skipSpace rest)
          match skipSpace rest with
          | '\x7d' :: rest => return ([(name, value)], rest)
          | ',' :: rest => do
              let (fields, rest) ← parseFields fuel (skipSpace rest)
              return ((name, value) :: fields, rest)
          | _ => none
      | _ => none
  | _, _ => none

end

/-- `json.loads(text)`; two steps for each character are enough. -/
def loads (text : String) : Option (Json δ) := do
  let cs := skipSpace text.toList
  let (v, rest) ← parseValue (2 * cs.length) cs
  if skipSpace rest = [] then return v else none

theorem hexValue_digitChar : ∀ n < 16, hexValue n.digitChar = some n := by decide

theorem readUnit_hexDigits {n : Nat} (h : n < 0x10000) (rest : List Char) :
    readUnit (hexDigits n ++ rest) = some (n, rest) := by
  have h1 := hexValue_digitChar (n / 4096 % 16) (by omega)
  have h2 := hexValue_digitChar (n / 256 % 16) (by omega)
  have h3 := hexValue_digitChar (n / 16 % 16) (by omega)
  have h4 := hexValue_digitChar (n % 16) (by omega)
  have hn : 4096 * (n / 4096 % 16) + 256 * (n / 256 % 16) + 16 * (n / 16 % 16) + n % 16 = n := by
    omega
  simp [hexDigits, readUnit, h1, h2, h3, h4, hn]

/-- No character is a surrogate. -/
theorem scalar_bounds (c : Char) :
    c.toNat < 0xd800 ∨ 0xdfff < c.toNat ∧ c.toNat < 0x110000 := c.valid

theorem surrogates (c : Char) (h : ¬ c.toNat < 0x10000) :
    IsHigh (highSurrogate c.toNat) ∧ IsLow (lowSurrogate c.toNat) ∧
      joinSurrogates (highSurrogate c.toNat) (lowSurrogate c.toNat) = c.toNat := by
  have hscalar := scalar_bounds c
  unfold IsHigh IsLow joinSurrogates highSurrogate lowSurrogate
  omega

theorem readEscaped_unit {c : Char} (h : c.toNat < 0x10000) (rest : List Char) :
    readEscaped (hexDigits c.toNat ++ rest) = some (c, rest) := by
  have hscalar := scalar_bounds c
  have hhigh : ¬ IsHigh c.toNat := by
    unfold IsHigh
    omega
  have hlow : ¬ IsLow c.toNat := by
    unfold IsLow
    omega
  simp only [readEscaped, readUnit_hexDigits h, bind, Option.bind_some, if_neg hhigh, if_neg hlow,
    Char.ofNat_toNat]
  rfl

theorem readEscaped_pair {n m : Nat} (hhigh : IsHigh n) (hlow : IsLow m) (rest : List Char) :
    readEscaped (hexDigits n ++ (escapeUnit m ++ rest)) =
      some (Char.ofNat (joinSurrogates n m), rest) := by
  have hn : n < 0x10000 := Nat.lt_of_lt_of_le hhigh.2 (by decide)
  have hm : m < 0x10000 := Nat.lt_of_lt_of_le hlow.2 (by decide)
  rw [readEscaped, readUnit_hexDigits hn]
  simp only [bind, Option.bind_some, if_pos hhigh, escapeUnit, List.cons_append,
    readUnit_hexDigits hm, if_pos hlow]
  rfl

theorem readChar_escapeChar (c : Char) (rest : List Char) :
    readChar (escapeChar c ++ rest) = some (c, rest) := by
  unfold escapeChar
  split_ifs with hquote hslash hline hreturn htab hfeed hback hplain hunit
  · subst hquote
    rfl
  · subst hslash
    rfl
  · subst hline
    rfl
  · subst hreturn
    rfl
  · subst htab
    rfl
  · subst hfeed
    rfl
  · subst hback
    rfl
  · have hbare : ¬ (c = '\\' ∨ c = '"' ∨ c.toNat < 0x20) := by
      rintro (hc | hc | hc)
      · exact hslash hc
      · exact hquote hc
      · omega
    rw [List.singleton_append, readChar, if_neg hbare]
    · intro tail hc
      exact absurd hc hslash
    · intro d tail hc
      exact absurd hc hslash
  · rw [escapeUnit, List.cons_append, List.cons_append, readChar]
    exact readEscaped_unit hunit rest
  · obtain ⟨hhigh, hlow, hjoin⟩ := surrogates c hunit
    rw [escapeUnit, List.append_assoc, List.cons_append, List.cons_append, readChar,
      readEscaped_pair hhigh hlow, hjoin, Char.ofNat_toNat]

theorem escapeChar_ne_nil (c : Char) : escapeChar c ≠ [] := by
  intro h
  have hread := readChar_escapeChar c []
  rw [h] at hread
  cases hread

theorem parseChars_of_readChar {cs rest : List Char} {c : Char} (h : readChar cs = some (c, rest))
    (fuel : Nat) :
    parseChars (fuel + 1) cs = (parseChars fuel rest).map fun p => (c :: p.1, p.2) := by
  have hquote : ∀ tail, cs ≠ '"' :: tail := by
    rintro tail rfl
    cases h
  rw [parseChars]
  · simp only [h, bind, Option.bind_some]
    cases parseChars fuel rest <;> rfl
  · exact hquote

theorem parseChars_escaped (s rest : List Char) {fuel : Nat} (h : s.length ≤ fuel) :
    parseChars fuel (s.flatMap escapeChar ++ '"' :: rest) = some (s, rest) := by
  induction s generalizing fuel with
  | nil => cases fuel <;> rfl
  | cons c s ih =>
    obtain ⟨fuel, rfl⟩ : ∃ k, fuel = k + 1 := Nat.exists_eq_add_one.mpr (by simp at h; omega)
    have hfuel : s.length ≤ fuel := by simpa using h
    rw [List.flatMap_cons, List.append_assoc, parseChars_of_readChar (readChar_escapeChar c _),
      ih hfuel]
    rfl

theorem length_le_flatMap (s : List Char) : s.length ≤ (s.flatMap escapeChar).length := by
  induction s with
  | nil => exact Nat.zero_le _
  | cons c s ih =>
    have hpos := List.length_pos_iff.mpr (escapeChar_ne_nil c)
    rw [List.flatMap_cons, List.length_append, List.length_cons]
    omega

theorem parseString_encode (s : String) (rest : List Char) :
    parseString (s.toList.flatMap escapeChar ++ '"' :: rest) = some (s, rest) := by
  have hlength := length_le_flatMap s.toList
  have hfuel : s.toList.length ≤ (s.toList.flatMap escapeChar ++ '"' :: rest).length := by
    rw [List.length_append]
    omega
  rw [parseString, parseChars_escaped _ _ hfuel, Option.map_some, String.ofList_toList]

/-- What may follow a value. -/
def Closes (rest : List Char) : Prop :=
  rest = [] ∨ ∃ c tail, rest = c :: tail ∧ (c = ',' ∨ c = ']' ∨ c = '\x7d')

theorem Closes.parts {rest : List Char} (h : Closes rest) :
    rest.takeWhile Char.isDigit = [] ∧ rest.dropWhile Char.isDigit = rest ∧
      rest.head? ≠ some '.' ∧ rest.head? ≠ some 'e' ∧ rest.head? ≠ some 'E' ∧
      skipSpace rest = rest := by
  rcases h with rfl | ⟨c, tail, rfl, rfl | rfl | rfl⟩
  · decide
  all_goals
    refine ⟨rfl, rfl, ?_, ?_, ?_, rfl⟩ <;> simp

theorem head_toDigits {n : Nat} (h : n ≠ 0) : (Nat.toDigits 10 n).head? ≠ some '0' := by
  induction n using Nat.strong_induction_on with
  | _ n ih =>
    rw [Nat.toDigits_eq_if (by decide)]
    split_ifs with hlt
    · simpa using h
    · have hrec := ih (n / 10) (by omega) (by omega)
      rwa [List.head?_append_of_ne_nil _ Nat.toDigits_ne_nil]

theorem parseNatural_toDigits (n : Nat) {rest : List Char} (h : Closes rest) :
    parseNatural (Nat.toDigits 10 n ++ rest) = some (n, rest) := by
  obtain ⟨htake, hdrop, hpoint, hsmall, hlarge, -⟩ := h.parts
  have hdigits : ∀ c ∈ Nat.toDigits 10 n, c.isDigit = true := fun c hc =>
    Nat.isDigit_of_mem_toDigits (by decide) (by decide) hc
  have hfront : (Nat.toDigits 10 n ++ rest).takeWhile Char.isDigit = Nat.toDigits 10 n := by
    rw [List.takeWhile_append_of_pos hdigits, htake, List.append_nil]
  have hback : (Nat.toDigits 10 n ++ rest).dropWhile Char.isDigit = rest := by
    rw [List.dropWhile_append_of_pos hdigits, hdrop]
  have hzero : ¬ ((Nat.toDigits 10 n).head? = some '0' ∧ (Nat.toDigits 10 n).length ≠ 1) := by
    rintro ⟨hhead, hlength⟩
    by_cases hn : n = 0
    · subst hn
      exact hlength rfl
    · exact head_toDigits hn hhead
  have hwhole : ¬ (rest.head? = some '.' ∨ rest.head? = some 'e' ∨ rest.head? = some 'E') := by
    rintro (hc | hc | hc)
    · exact hpoint hc
    · exact hsmall hc
    · exact hlarge hc
  simp only [parseNatural, hfront, hback, if_neg Nat.toDigits_ne_nil, if_neg hzero, if_neg hwhole,
    Nat.ofDigitChars_ten_toDigits]

theorem head_toString (n : Int) :
    ∃ c tail, (toString n).toList = c :: tail ∧ (c = '-' ∨ c.isDigit = true) := by
  rw [Decimal.toList_toString]
  split_ifs
  · exact ⟨'-', _, rfl, .inl rfl⟩
  · have hne : Nat.toDigits 10 n.natAbs ≠ [] := Nat.toDigits_ne_nil
    obtain ⟨c, digits, hdigits⟩ := List.exists_cons_of_ne_nil hne
    have hmem : c ∈ Nat.toDigits 10 n.natAbs := hdigits ▸ List.mem_cons_self
    exact ⟨c, digits, hdigits, .inr (Nat.isDigit_of_mem_toDigits (by decide) (by decide) hmem)⟩

theorem parseNumber_toString (n : Int) {rest : List Char} (h : Closes rest) :
    parseNumber ((toString n).toList ++ rest) = some (n, rest) := by
  rw [Decimal.toList_toString]
  by_cases hneg : n < 0
  · have habs : -(n.natAbs : Int) = n := by omega
    rw [if_pos hneg, List.singleton_append, List.cons_append, parseNumber,
      parseNatural_toDigits _ h, Option.map_some, habs]
  · have habs : (n.natAbs : Int) = n := by omega
    have hdash : ∀ tail, Nat.toDigits 10 n.natAbs ++ rest ≠ '-' :: tail := by
      intro tail heq
      have hmem : '-' ∈ Nat.toDigits 10 n.natAbs := by
        have hne : Nat.toDigits 10 n.natAbs ≠ [] := Nat.toDigits_ne_nil
        obtain ⟨c, digits, hdigits⟩ := List.exists_cons_of_ne_nil hne
        rw [hdigits, List.cons_append] at heq
        rw [hdigits, (List.cons.inj heq).1]
        exact List.mem_cons_self
      exact Decimal.notMem_digits (by decide) n.natAbs hmem
    rw [if_neg hneg, List.nil_append, parseNumber, parseNatural_toDigits _ h, Option.map_some, habs]
    exact hdash

theorem digit_ne {c d : Char} (hc : c.isDigit = true) (hd : d.isDigit = false) : c ≠ d := by
  rintro rfl
  rw [hc] at hd
  cases hd

theorem isSpace_digit {c : Char} (hc : c.isDigit = true) : isSpace c = false := by
  simp [isSpace, digit_ne hc]

/-- Induction on a value, with the hypothesis for the members of arrays and objects. -/
@[elab_as_elim]
theorem members_induction {motive : Json δ → Prop} (null : motive .null)
    (bool : ∀ b, motive (.bool b)) (int : ∀ n, motive (.int n)) (str : ∀ s, motive (.str s))
    (arr : ∀ items, (∀ v ∈ items, motive v) → motive (.arr items))
    (obj : ∀ fields, (∀ f ∈ fields, motive f.2) → motive (.obj fields))
    (other : ∀ x, motive (.other x)) (v : Json δ) : motive v :=
  match v with
  | .null => null
  | .bool b => bool b
  | .int n => int n
  | .str s => str s
  | .arr items => arr items fun v _ => members_induction null bool int str arr obj other v
  | .obj fields => obj fields fun f _ => members_induction null bool int str arr obj other f.2
  | .other x => other x
termination_by v
decreasing_by
  · rename_i hmem
    have hlt := List.sizeOf_lt_of_mem hmem
    simp only [Json.arr.sizeOf_spec]
    omega
  · rename_i hmem
    have hlt := List.sizeOf_lt_of_mem hmem
    obtain ⟨name, value⟩ := f
    simp only [Json.obj.sizeOf_spec, Prod.mk.sizeOf_spec] at hlt ⊢
    omega

variable (default : δ → String)

theorem encode_head (v : Json δ) :
    ∃ c tail, encode default v = c :: tail ∧ isSpace c = false ∧ c ≠ ']' := by
  have hplain (c : Char) (tail : List Char) (hspace : isSpace c = false) (hclose : c ≠ ']') :
      ∃ d rest, c :: tail = d :: rest ∧ isSpace d = false ∧ d ≠ ']' :=
    ⟨c, tail, rfl, hspace, hclose⟩
  cases v with
  | null => exact hplain 'n' _ (by decide) (by decide)
  | bool b =>
    cases b with
    | false => exact hplain 'f' _ (by decide) (by decide)
    | true => exact hplain 't' _ (by decide) (by decide)
  | int n =>
    obtain ⟨c, tail, hhead, hc⟩ := head_toString n
    rw [encode, hhead]
    rcases hc with rfl | hc
    · exact hplain '-' _ (by decide) (by decide)
    · exact hplain c _ (isSpace_digit hc) (digit_ne hc rfl)
  | str s => exact hplain '"' _ (by decide) (by decide)
  | arr items =>
    cases items with
    | nil => exact hplain '[' _ (by decide) (by decide)
    | cons item items => exact hplain '[' _ (by decide) (by decide)
  | obj fields =>
    cases fields with
    | nil => exact hplain '\x7b' _ (by decide) (by decide)
    | cons field fields => exact hplain '\x7b' _ (by decide) (by decide)
  | other x => exact hplain '"' _ (by decide) (by decide)

theorem skipSpace_comma (cs : List Char) : skipSpace (',' :: cs) = ',' :: cs := rfl

theorem skipSpace_colon (cs : List Char) : skipSpace (':' :: cs) = ':' :: cs := rfl

theorem skipSpace_quote (cs : List Char) : skipSpace ('"' :: cs) = '"' :: cs := rfl

theorem skipSpace_space (cs : List Char) : skipSpace (' ' :: cs) = skipSpace cs := rfl

theorem skipSpace_encode (v : Json δ) (rest : List Char) :
    skipSpace (encode default v ++ rest) = encode default v ++ rest := by
  obtain ⟨c, tail, hv, hspace, -⟩ := encode_head default v
  rw [hv, List.cons_append, skipSpace, List.dropWhile_cons_of_neg (by rw [hspace]; decide)]

theorem length_encode_pos (v : Json δ) : 0 < (encode default v).length := by
  obtain ⟨c, tail, hv, -, -⟩ := encode_head default v
  rw [hv]
  exact Nat.zero_lt_succ _

theorem exists_fuel {v : Json δ} {fuel : Nat} (h : 2 * (encode default v).length ≤ fuel) :
    ∃ k, fuel = k + 1 := by
  have hpos := length_encode_pos default v
  exact Nat.exists_eq_add_one.mpr (by omega)

/-- The parser reads the text of the value and leaves what follows. -/
def Reads (ε : Type) (v : Json δ) : Prop :=
  ∀ fuel rest, Closes rest → 2 * (encode default v).length ≤ fuel →
    parseValue fuel (encode default v ++ rest) = some ((defaulted default v : Json ε), rest)

theorem closes_encodeItems (items : List (Json δ)) (rest : List Char) :
    Closes (encodeItems default items ++ rest) := by
  cases items with
  | nil => exact .inr ⟨']', rest, rfl, .inr (.inl rfl)⟩
  | cons item items => exact .inr ⟨',', _, rfl, .inl rfl⟩

theorem closes_encodeFields (fields : List (String × Json δ)) (rest : List Char) :
    Closes (encodeFields default fields ++ rest) := by
  cases fields with
  | nil => exact .inr ⟨'\x7d', rest, rfl, .inr (.inr rfl)⟩
  | cons field fields => exact .inr ⟨',', _, rfl, .inl rfl⟩

theorem parseItems_encode {item : Json δ} {items : List (Json δ)}
    (h : ∀ v ∈ item :: items, Reads default ε v) {fuel : Nat}
    (hfuel : 2 * (encode default item ++ encodeItems default items).length < fuel)
    (rest : List Char) :
    parseItems fuel (encode default item ++ (encodeItems default items ++ rest)) =
      some ((defaultedItems default (item :: items) : List (Json ε)), rest) := by
  induction items generalizing item fuel with
  | nil =>
    obtain ⟨fuel, rfl⟩ : ∃ k, fuel = k + 1 := Nat.exists_eq_add_one.mpr (by omega)
    rw [List.length_append] at hfuel
    have hitem := h item List.mem_cons_self fuel (encodeItems default [] ++ rest)
      (closes_encodeItems default [] rest) (by omega)
    rw [parseItems, hitem]
    rfl
  | cons next items ih =>
    obtain ⟨fuel, rfl⟩ : ∃ k, fuel = k + 1 := Nat.exists_eq_add_one.mpr (by omega)
    have hlength : (encodeItems default (next :: items)).length =
        (encode default next ++ encodeItems default items).length + 2 := rfl
    rw [List.length_append, hlength] at hfuel
    have hpos := length_encode_pos default item
    have hitem := h item List.mem_cons_self fuel (encodeItems default (next :: items) ++ rest)
      (closes_encodeItems default _ rest) (by omega)
    have hmembers : ∀ v ∈ next :: items, Reads default ε v := fun v hv =>
      h v (List.mem_cons_of_mem item hv)
    have hitems : parseItems fuel (encode default next ++ (encodeItems default items ++ rest)) =
        some ((defaultedItems default (next :: items) : List (Json ε)), rest) :=
      ih hmembers (by omega)
    have htext : encodeItems default (next :: items) ++ rest =
        ',' :: ' ' :: (encode default next ++ (encodeItems default items ++ rest)) := by
      rw [encodeItems, List.cons_append, List.cons_append, List.append_assoc]
    rw [parseItems, hitem, htext]
    simp only [bind, Option.bind_some, skipSpace_comma, skipSpace_space, skipSpace_encode, hitems]
    rfl

/-- A name and its value in an object. -/
def encodeField (field : String × Json δ) : List Char :=
  encodeString field.1 ++ ':' :: ' ' :: encode default field.2

theorem encodeFields_cons (field : String × Json δ) (fields : List (String × Json δ)) :
    encodeFields default (field :: fields) =
      ',' :: ' ' :: (encodeField default field ++ encodeFields default fields) := by
  obtain ⟨name, value⟩ := field
  rw [encodeFields, encodeField, List.append_assoc, List.cons_append, List.cons_append]

theorem encode_obj_cons (field : String × Json δ) (fields : List (String × Json δ)) :
    encode default (.obj (field :: fields)) =
      '\x7b' :: (encodeField default field ++ encodeFields default fields) := by
  obtain ⟨name, value⟩ := field
  rw [encode, encodeField, List.append_assoc, List.cons_append, List.cons_append]

theorem length_encode_lt (field : String × Json δ) :
    (encode default field.2).length < (encodeField default field).length := by
  rw [encodeField, List.length_append, List.length_cons, List.length_cons]
  omega

theorem parseFields_encode {field : String × Json δ} {fields : List (String × Json δ)}
    (h : ∀ f ∈ field :: fields, Reads default ε f.2) {fuel : Nat}
    (hfuel : 2 * (encodeField default field ++ encodeFields default fields).length < fuel)
    (rest : List Char) :
    parseFields fuel (encodeField default field ++ (encodeFields default fields ++ rest)) =
      some ((defaultedFields default (field :: fields) : List (String × Json ε)), rest) := by
  induction fields generalizing field fuel with
  | nil =>
    obtain ⟨fuel, rfl⟩ : ∃ k, fuel = k + 1 := Nat.exists_eq_add_one.mpr (by omega)
    rw [List.length_append] at hfuel
    have hshort := length_encode_lt default field
    have hvalue := h field List.mem_cons_self fuel (encodeFields default [] ++ rest)
      (closes_encodeFields default [] rest) (by omega)
    simp only [encodeField, encodeString, List.cons_append, List.append_assoc, List.nil_append]
    rw [parseFields, parseString_encode]
    simp only [bind, Option.bind_some, skipSpace_colon, skipSpace_space, skipSpace_encode, hvalue]
    rfl
  | cons next fields ih =>
    obtain ⟨fuel, rfl⟩ : ∃ k, fuel = k + 1 := Nat.exists_eq_add_one.mpr (by omega)
    have hlength : (encodeFields default (next :: fields)).length =
        (encodeField default next ++ encodeFields default fields).length + 2 := by
      rw [encodeFields_cons]
      rfl
    rw [List.length_append, hlength] at hfuel
    have hshort := length_encode_lt default field
    have hvalue := h field List.mem_cons_self fuel (encodeFields default (next :: fields) ++ rest)
      (closes_encodeFields default _ rest) (by omega)
    have hmembers : ∀ f ∈ next :: fields, Reads default ε f.2 := fun f hf =>
      h f (List.mem_cons_of_mem _ hf)
    have hfields : parseFields fuel (encodeField default next ++
        (encodeFields default fields ++ rest)) =
          some ((defaultedFields default (next :: fields) : List (String × Json ε)), rest) :=
      ih hmembers (by omega)
    have htext : encodeFields default (next :: fields) ++ rest =
        ',' :: ' ' :: (encodeField default next ++ (encodeFields default fields ++ rest)) := by
      rw [encodeFields_cons, List.cons_append, List.cons_append, List.append_assoc]
    simp only [encodeField, encodeString, List.cons_append, List.append_assoc,
      List.nil_append] at hfields ⊢
    rw [parseFields, parseString_encode]
    simp only [bind, Option.bind_some, skipSpace_colon, skipSpace_space, skipSpace_encode, hvalue]
    rw [htext]
    simp only [encodeField, encodeString, List.cons_append, List.append_assoc, List.nil_append,
      skipSpace_comma, skipSpace_space, skipSpace_quote, hfields]
    rfl

theorem parseValue_literals (fuel : Nat) (cs : List Char) :
    parseValue (fuel + 1) ('n' :: 'u' :: 'l' :: 'l' :: cs) = some ((.null : Json δ), cs) ∧
      parseValue (fuel + 1) ('t' :: 'r' :: 'u' :: 'e' :: cs) = some ((.bool true : Json δ), cs) ∧
      parseValue (fuel + 1) ('f' :: 'a' :: 'l' :: 's' :: 'e' :: cs) =
        some ((.bool false : Json δ), cs) := by
  simp [parseValue, List.dropPrefix?]

theorem parseValue_string (fuel : Nat) (s : String) (rest : List Char) :
    parseValue (fuel + 1) (encodeString s ++ rest) = some ((.str s : Json δ), rest) := by
  simp only [encodeString, List.cons_append, List.append_assoc, List.nil_append]
  rw [parseValue, if_pos rfl, parseString_encode]
  rfl

theorem parseValue_number (fuel : Nat) (n : Int) {rest : List Char} (h : Closes rest) :
    parseValue (fuel + 1) ((toString n).toList ++ rest) = some ((.int n : Json δ), rest) := by
  have hnumber := parseNumber_toString n h
  obtain ⟨c, tail, hhead, hc⟩ := head_toString n
  have hother {d : Char} (hd : d.isDigit = false) (hdash : '-' ≠ d) : c ≠ d := by
    rcases hc with rfl | hc
    · exact hdash
    · exact digit_ne hc hd
  rw [hhead, List.cons_append] at hnumber ⊢
  rw [parseValue, if_neg (hother rfl (by decide)), if_neg (hother rfl (by decide)),
    if_neg (hother rfl (by decide)), if_neg (hother rfl (by decide)),
    if_neg (hother rfl (by decide)), if_neg (hother rfl (by decide)), hnumber]
  rfl

theorem parseValue_array {fuel : Nat} {cs rest : List Char} {items : List (Json δ)}
    (hhead : ∃ c tail, cs = c :: tail ∧ isSpace c = false ∧ c ≠ ']')
    (h : parseItems fuel cs = some (items, rest)) :
    parseValue (fuel + 1) ('[' :: cs) = some (.arr items, rest) := by
  obtain ⟨c, tail, rfl, hspace, hclose⟩ := hhead
  have hskip : skipSpace (c :: tail) = c :: tail := by
    rw [skipSpace, List.dropWhile_cons_of_neg (by rw [hspace]; decide)]
  rw [parseValue, if_neg (by decide), if_pos rfl, hskip]
  split
  · rename_i rest' heq
    exact absurd (List.cons.inj heq).1 hclose
  · rw [h]
    rfl

theorem parseValue_object {fuel : Nat} {cs rest : List Char} {fields : List (String × Json δ)}
    (h : parseFields fuel ('"' :: cs) = some (fields, rest)) :
    parseValue (fuel + 1) ('\x7b' :: '"' :: cs) = some (.obj fields, rest) := by
  rw [parseValue, if_neg (by decide), if_neg (by decide), if_pos rfl, skipSpace_quote]
  split
  · rename_i rest' heq
    exact absurd (List.cons.inj heq).1 (by decide)
  · rw [h]
    rfl

/-- The parser reads back every value from its text. -/
theorem reads (v : Json δ) : Reads default ε v := by
  induction v using members_induction with
  | null =>
    intro fuel rest hrest hfuel
    obtain ⟨fuel, rfl⟩ := exists_fuel default hfuel
    exact (parseValue_literals fuel rest).1
  | bool b =>
    intro fuel rest hrest hfuel
    obtain ⟨fuel, rfl⟩ := exists_fuel default hfuel
    cases b with
    | false => exact (parseValue_literals fuel rest).2.2
    | true => exact (parseValue_literals fuel rest).2.1
  | int n =>
    intro fuel rest hrest hfuel
    obtain ⟨fuel, rfl⟩ := exists_fuel default hfuel
    rw [encode]
    exact parseValue_number fuel n hrest
  | str s =>
    intro fuel rest hrest hfuel
    obtain ⟨fuel, rfl⟩ := exists_fuel default hfuel
    rw [encode]
    exact parseValue_string fuel s rest
  | arr items ih =>
    intro fuel rest hrest hfuel
    obtain ⟨fuel, rfl⟩ := exists_fuel default hfuel
    cases items with
    | nil => rfl
    | cons item items =>
      have hshort : 2 * (encode default item ++ encodeItems default items).length < fuel := by
        rw [encode, List.length_cons] at hfuel
        omega
      have hitems := parseItems_encode default ih hshort rest
      obtain ⟨c, tail, hhead, hspace, hclose⟩ := encode_head default item
      rw [encode, List.cons_append, List.append_assoc]
      exact parseValue_array ⟨c, _, by rw [hhead, List.cons_append], hspace, hclose⟩ hitems
  | obj fields ih =>
    intro fuel rest hrest hfuel
    obtain ⟨fuel, rfl⟩ := exists_fuel default hfuel
    cases fields with
    | nil => rfl
    | cons field fields =>
      have hshort :
          2 * (encodeField default field ++ encodeFields default fields).length < fuel := by
        rw [encode_obj_cons, List.length_cons] at hfuel
        omega
      have hfields := parseFields_encode default ih hshort rest
      rw [encode_obj_cons, List.cons_append, List.append_assoc]
      exact parseValue_object hfields
  | other x =>
    intro fuel rest hrest hfuel
    obtain ⟨fuel, rfl⟩ := exists_fuel default hfuel
    rw [encode]
    exact parseValue_string fuel (default x) rest

/-- `json.loads(json.dumps(value, default=default))`. -/
theorem loads_dumps (v : Json δ) :
    loads (dumps default v) = some (defaulted default v : Json ε) := by
  have hskip : skipSpace (encode default v) = encode default v := by
    have hnil := skipSpace_encode default v []
    rwa [List.append_nil] at hnil
  have hreads : Reads default ε v := reads default v
  have hread := hreads (2 * (encode default v).length) [] (.inl rfl) (Nat.le_refl _)
  rw [List.append_nil] at hread
  rw [loads, dumps, String.toList_ofList, hskip]
  simp only [hread, bind, Option.bind_some]
  rfl

theorem defaultedItems_eq_map (items : List (Json δ)) :
    (defaultedItems default items : List (Json ε)) = items.map (defaulted default) := by
  induction items with
  | nil => rfl
  | cons item items ih => rw [defaultedItems, ih, List.map_cons]

theorem defaultedFields_eq_map (fields : List (String × Json δ)) :
    (defaultedFields default fields : List (String × Json ε)) =
      fields.map fun f => (f.1, defaulted default f.2) := by
  induction fields with
  | nil => rfl
  | cons f fields ih => rw [defaultedFields, ih, List.map_cons]

/-- A value without unknown leaves is as it is read back. -/
theorem defaulted_self (default : Empty → String) (v : Json Empty) : defaulted default v = v := by
  induction v using members_induction with
  | arr items ih =>
    rw [defaulted, defaultedItems_eq_map]
    have hitems : items.map (defaulted default) = items.map id := List.map_congr_left ih
    rw [hitems, List.map_id]
  | obj fields ih =>
    rw [defaulted, defaultedFields_eq_map]
    have hfields : fields.map (fun f => (f.1, defaulted default f.2)) = fields.map id :=
      List.map_congr_left fun f hf => Prod.ext rfl (ih f hf)
    rw [hfields, List.map_id]
  | other x => exact x.elim
  | _ => rw [defaulted]

end Json
