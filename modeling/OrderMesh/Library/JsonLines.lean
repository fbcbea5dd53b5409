import OrderMesh.Library.Json

namespace Json

variable {δ ε : Type}

def Printable (cs : List Char) : Prop := ∀ c ∈ cs, 0x20 ≤ c.toNat ∧ c.toNat ≤ 0x7e

theorem printable_nil : Printable [] := fun _ h => absurd h List.not_mem_nil

theorem printable_of_all {cs : List Char}
    (h : cs.all (fun c => decide (0x20 ≤ c.toNat ∧ c.toNat ≤ 0x7e)) = true) : Printable cs := by
  intro c hc
  exact of_decide_eq_true (List.all_eq_true.mp h c hc)

theorem Printable.cons {c : Char} {cs : List Char} (hc : 0x20 ≤ c.toNat ∧ c.toNat ≤ 0x7e)
    (h : Printable cs) : Printable (c :: cs) :=
  List.forall_mem_cons.mpr ⟨hc, h⟩

theorem Printable.append {cs ds : List Char} (hc : Printable cs) (hd : Printable ds) :
    Printable (cs ++ ds) :=
  List.forall_mem_append.mpr ⟨hc, hd⟩

theorem printable_digit {c : Char} (hc : c.isDigit = true) : 0x20 ≤ c.toNat ∧ c.toNat ≤ 0x7e := by
  have hbounds := Char.isDigit_iff_toNat.mp hc
  simp at hbounds
  omega

theorem digitChar_printable : ∀ n < 16, 0x20 ≤ n.digitChar.toNat ∧ n.digitChar.toNat ≤ 0x7e := by
  decide

theorem printable_escapeUnit (n : Nat) : Printable (escapeUnit n) := by
  have hdigit (m : Nat) : 0x20 ≤ (m % 16).digitChar.toNat ∧ (m % 16).digitChar.toNat ≤ 0x7e :=
    digitChar_printable _ (Nat.mod_lt m (by decide))
  apply Printable.cons (by decide)
  apply Printable.cons (by decide)
  intro c hc
  obtain ⟨m, hm, rfl⟩ := List.mem_map.mp hc
  simp only [List.mem_cons, List.not_mem_nil, or_false] at hm
  rcases hm with rfl | rfl | rfl | rfl
  · exact hdigit (n / 4096)
  · exact hdigit (n / 256)
  · exact hdigit (n / 16)
  · exact hdigit n

theorem printable_escapeChar (c : Char) : Printable (escapeChar c) := by
  have hpair (d e : Char) (hd : 0x20 ≤ d.toNat ∧ d.toNat ≤ 0x7e)
      (he : 0x20 ≤ e.toNat ∧ e.toNat ≤ 0x7e) : Printable [d, e] :=
    .cons hd (.cons he printable_nil)
  unfold escapeChar
  split_ifs with _ _ _ _ _ _ _ hplain
  · exact hpair _ _ (by decide) (by decide)
  · exact hpair _ _ (by decide) (by decide)
  · exact hpair _ _ (by decide) (by decide)
  · exact hpair _ _ (by decide) (by decide)
  · exact hpair _ _ (by decide) (by decide)
  · exact hpair _ _ (by decide) (by decide)
  · exact hpair _ _ (by decide) (by decide)
  · exact .cons hplain printable_nil
  · exact printable_escapeUnit _
  · exact (printable_escapeUnit _).append (printable_escapeUnit _)

theorem printable_encodeString (s : String) : Printable (encodeString s) := by
  apply Printable.cons (by decide)
  apply Printable.append _ (.cons (by decide) printable_nil)
  intro c hc
  obtain ⟨d, -, hd⟩ := List.mem_flatMap.mp hc
  exact printable_escapeChar d c hd

theorem printable_toString (n : Int) : Printable (toString n).toList := by
  rw [Decimal.toList_toString]
  apply Printable.append
  · split_ifs
    · exact .cons (by decide) printable_nil
    · exact printable_nil
  · intro c hc
    exact printable_digit (Nat.isDigit_of_mem_toDigits (by decide) (by decide) hc)

variable (default : δ → String)

theorem printable_encodeItems {items : List (Json δ)}
    (h : ∀ v ∈ items, Printable (encode default v)) : Printable (encodeItems default items) := by
  induction items with
  | nil => exact .cons (by decide) printable_nil
  | cons item items ih =>
    have htail := ih fun v hv => h v (List.mem_cons_of_mem _ hv)
    exact .cons (by decide) (.cons (by decide) ((h item List.mem_cons_self).append htail))

theorem printable_encodeField {field : String × Json δ} (h : Printable (encode default field.2)) :
    Printable (encodeField default field) :=
  (printable_encodeString field.1).append (.cons (by decide) (.cons (by decide) h))

theorem printable_encodeFields {fields : List (String × Json δ)}
    (h : ∀ f ∈ fields, Printable (encode default f.2)) :
    Printable (encodeFields default fields) := by
  induction fields with
  | nil => exact .cons (by decide) printable_nil
  | cons field fields ih =>
    have htail := ih fun f hf => h f (List.mem_cons_of_mem _ hf)
    have hfield := printable_encodeField default (h field List.mem_cons_self)
    rw [encodeFields_cons]
    exact .cons (by decide) (.cons (by decide) (hfield.append htail))

theorem printable_encode (v : Json δ) : Printable (encode default v) := by
  induction v using members_induction with
  | null =>
    show Printable ['n', 'u', 'l', 'l']
    exact printable_of_all rfl
  | bool b =>
    cases b with
    | false =>
      show Printable ['f', 'a', 'l', 's', 'e']
      exact printable_of_all rfl
    | true =>
      show Printable ['t', 'r', 'u', 'e']
      exact printable_of_all rfl
  | int n => exact printable_toString n
  | str s => exact printable_encodeString s
  | arr items ih =>
    cases items with
    | nil =>
      show Printable ['[', ']']
      exact printable_of_all rfl
    | cons item items =>
      have htail := printable_encodeItems default fun v hv => ih v (List.mem_cons_of_mem _ hv)
      exact .cons (by decide) ((ih item List.mem_cons_self).append htail)
  | obj fields ih =>
    cases fields with
    | nil =>
      show Printable ['\x7b', '\x7d']
      exact printable_of_all rfl
    | cons field fields =>
      have htail := printable_encodeFields default fun f hf => ih f (List.mem_cons_of_mem _ hf)
      have hfield := printable_encodeField default (ih field List.mem_cons_self)
      rw [encode_obj_cons]
      exact .cons (by decide) (hfield.append htail)
  | other x => exact printable_encodeString (default x)

theorem newline_notMem_dumps (v : Json δ) : '\n' ∉ (dumps default v).toList := by
  intro hmem
  rw [dumps, String.toList_ofList] at hmem
  exact absurd (printable_encode default v '\n' hmem).1 (by decide)

/-- Every value on a line of its own. -/
def dumpLines (vs : List (Json δ)) : String := String.join (vs.map fun v => dumps default v ++ "\n")

/-- The values of the complete lines. -/
def loadLines (text : String) : Option (List (Json ε)) :=
  (text.toList.splitOn '\n').dropLast.mapM fun line => loads (String.ofList line)

theorem splitOn_dumpLines (vs : List (Json δ)) :
    (dumpLines default vs).toList.splitOn '\n' =
      (vs.map fun v => (dumps default v).toList) ++ [[]] := by
  induction vs with
  | nil => rfl
  | cons v vs ih =>
    have hline : dumpLines default (v :: vs) = dumps default v ++ "\n" ++ dumpLines default vs := by
      simp [dumpLines]
    have htext : (dumpLines default (v :: vs)).toList =
        (dumps default v).toList ++ '\n' :: (dumpLines default vs).toList := by
      simp [hline]
    rw [htext, List.splitOn_append_cons_self_of_not_mem (newline_notMem_dumps default v), ih]
    rfl

theorem loadLines_dumpLines (vs : List (Json δ)) :
    loadLines (dumpLines default vs) = some (vs.map fun v => (defaulted default v : Json ε)) := by
  rw [loadLines, splitOn_dumpLines, List.dropLast_concat]
  induction vs with
  | nil => rfl
  | cons v vs ih =>
    rw [List.map_cons, List.mapM_cons, String.ofList_toList, loads_dumps, ih]
    rfl

end Json
