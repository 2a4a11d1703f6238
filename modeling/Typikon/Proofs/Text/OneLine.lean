import Typikon.Proofs.Text.Writing
import Typikon.Text.Vocabulary

/-!
Texts on one line. A text that is put together from texts on one line stands on one line, and lines
that are printed one after another are found again if each of them does.
-/

namespace Typikon.Text

/-- A text without a newline. -/
def IsLine (s : String) : Prop :=
  '\n' ∉ s.toList

@[simp]
theorem isLine_append (s t : String) : IsLine (s ++ t) ↔ IsLine s ∧ IsLine t := by
  simp [IsLine, String.toList_append]

theorem IsLine.append {s t : String} (hs : IsLine s) (ht : IsLine t) : IsLine (s ++ t) :=
  (isLine_append s t).mpr ⟨hs, ht⟩

/-- A literal is the text of its characters, which are quicker to look through one by one. -/
theorem isLine_ofList {s : List Char} (h : '\n' ∉ s) : IsLine (String.ofList s) := by
  rwa [IsLine, String.toList_ofList]

/-- A message that quotes something between two pieces of text. -/
theorem isLine_around {before after : List Char} {s : String} (hbefore : '\n' ∉ before)
    (hs : IsLine s) (hafter : '\n' ∉ after) :
    IsLine (String.ofList before ++ s ++ String.ofList after) :=
  ((isLine_ofList hbefore).append hs).append (isLine_ofList hafter)

theorem isLine_toString_char {c : Char} (h : c ≠ '\n') : IsLine (toString c) := by
  change '\n' ∉ (String.singleton c).toList
  rw [String.toList_singleton, List.mem_singleton]
  exact h.symm

theorem isLine_of_isDigit {s : String} (h : ∀ c ∈ s.toList, c.isDigit = true) : IsLine s := by
  intro hmem
  cases h _ hmem

theorem isLine_repr_nat (n : Nat) : IsLine n.repr := by
  apply isLine_of_isDigit
  intro c hc
  rw [Nat.toList_repr] at hc
  exact Decimal.isDigit_of_mem_toDigits hc

theorem isLine_repr_int (n : Int) : IsLine n.repr := by
  intro hmem
  change '\n' ∈ (toString n).toList at hmem
  obtain ⟨k, ⟨-, hdigits⟩ | ⟨-, hdigits⟩⟩ := Decimal.toList_toString_cases n
  · rw [hdigits] at hmem
    cases Decimal.isDigit_of_mem_toDigits hmem
  · rw [hdigits, List.mem_cons] at hmem
    rcases hmem with heq | hmem
    · cases heq
    · cases Decimal.isDigit_of_mem_toDigits hmem

theorem isLine_padded (width n : Nat) : IsLine (Decimal.padded width n) :=
  isLine_of_isDigit fun _ => Decimal.isDigit_of_mem_padded

theorem isLine_intercalate {separator : String} (hseparator : IsLine separator)
    {parts : List String} (h : ∀ part ∈ parts, IsLine part) :
    IsLine (separator.intercalate parts) := by
  induction parts with
  | nil =>
    rw [String.intercalate_nil]
    exact isLine_ofList (by decide)
  | cons first parts ih =>
    rw [List.forall_mem_cons] at h
    cases parts with
    | nil =>
      rw [String.intercalate_singleton]
      exact h.1
    | cons second parts =>
      rw [String.intercalate_cons_cons]
      exact (h.1.append hseparator).append (ih h.2)

theorem Vocabulary.isLine_expected {α : Type} {v : Vocabulary α}
    (h : ∀ value ∈ v.values, IsLine (v.word value)) : IsLine v.expected :=
  isLine_intercalate (isLine_ofList (by decide)) (List.forall_mem_map.mpr h)

/-! ### Lines that are printed -/

/-- What stands between separators has none in it. -/
theorem eq_false_of_mem_splitOnP {p : Char → Bool} {s part : List Char} (h : part ∈ s.splitOnP p) :
    ∀ c ∈ part, p c = false := by
  induction s generalizing part with
  | nil =>
    rw [List.splitOnP_nil, List.mem_singleton] at h
    rw [h]
    intro c hc
    cases hc
  | cons d s ih =>
    rw [List.splitOnP_cons_eq_if_modifyHead] at h
    split at h
    · rcases List.mem_cons.mp h with rfl | hmem
      · intro c hc
        cases hc
      · exact ih hmem
    · next hd =>
      obtain ⟨first, rest, hparts⟩ := List.exists_cons_of_ne_nil (List.splitOnP_ne_nil p s)
      rw [hparts] at h ih
      rw [List.modifyHead_cons, List.mem_cons] at h
      rcases h with rfl | hmem
      · rw [List.forall_mem_cons]
        exact ⟨Bool.not_eq_true _ ▸ hd, ih List.mem_cons_self⟩
      · exact ih (List.mem_cons_of_mem first hmem)

/-- A text that consists of the given lines, each with a newline after it. -/
def HasLines (s : String) (lines : List String) : Prop :=
  s.toList.splitOn '\n' = lines.map String.toList ++ [[]]

theorem isLine_of_mem_splitOn {s : List Char} {line : String}
    (h : line.toList ∈ s.splitOn '\n') : IsLine line := by
  intro hmem
  have hfalse := eq_false_of_mem_splitOnP h '\n' hmem
  cases hfalse

end Typikon.Text
