import Mathlib.Data.List.TakeWhile
import Typikon.Index.EntrySet
import Typikon.Proofs.Index.Path

/-!
Texts that list entries. A text is read just if every path that it lists has something on both sides
of its first slash, and the set that it is read as has the entries of these paths and no others.
-/

namespace Typikon

namespace Entry

theorem path_divide {path : String} (h : '/' ∈ path.toList) : (divide path).path = path := by
  obtain ⟨topic, key, hpath, htopic⟩ := List.eq_append_cons_of_mem h
  rw [← String.toList_inj, toList_path, divide_of_toList_eq htopic hpath, hpath]
  simp

theorem divide_ofList (chars : List Char) :
    divide (.ofList chars) =
      ⟨.ofList (chars.takeWhile (· ≠ '/')), .ofList ((chars.dropWhile (· ≠ '/')).drop 1)⟩ := by
  rw [divide, String.toList_ofList]

theorem mem_of_key_divide_ne {path : String} (h : (divide path).key ≠ "") : '/' ∈ path.toList := by
  refine Decidable.of_not_not fun hnone => h ?_
  have hother : ∀ c ∈ path.toList, decide (c ≠ '/') = true := by
    intro c hc
    simpa using fun hslash : c = '/' => hnone (hslash ▸ hc)
  have hall : path.toList.dropWhile (· ≠ '/') = [] := List.dropWhile_eq_nil_iff.2 hother
  rw [divide, hall]
  rfl

end Entry

namespace EntrySet

/-- The path that a line lists, unless the line is blank or begins with `#`. -/
def listed? (line : List Char) : Option String :=
  let text := Text.trimChars line
  if text = [] ∨ text.head? = some '#' then none else some (.ofList text)

/-- The paths that a text lists, line by line. -/
def listed (text : String) : List String :=
  (text.toList.splitOn '\n').filterMap listed?

/-- A path has something on both sides of its first slash. -/
def IsListable (path : String) : Prop :=
  (Entry.divide path).topic ≠ "" ∧ (Entry.divide path).key ≠ ""

instance (path : String) : Decidable (IsListable path) :=
  inferInstanceAs (Decidable (_ ∧ _))

theorem IsListable.slash_mem {path : String} (h : IsListable path) : '/' ∈ path.toList :=
  Entry.mem_of_key_divide_ne h.2

theorem isListable_ofList_iff {chars : List Char} :
    IsListable (.ofList chars) ↔
      ¬(chars.takeWhile (· ≠ '/') = [] ∨ (chars.dropWhile (· ≠ '/')).drop 1 = []) := by
  rw [IsListable, Entry.divide_ofList, not_or, ne_eq, ne_eq, String.ofList_eq_empty_iff,
    String.ofList_eq_empty_iff]

theorem has_add_iff {set : EntrySet} {entry other : Entry} :
    (set.add entry).has other = true ↔ entry.path = other.path ∨ set.has other = true := by
  simp [add, has]

section Lines

variable {set : EntrySet} {number : Nat} {line : List Char} {path : String}

theorem addLine_of_not_listed (h : listed? line = none) : set.addLine number line = .ok set := by
  unfold listed? at h
  unfold addLine
  dsimp only at h ⊢
  split at h
  next hblank => rw [if_pos hblank]
  · cases h

theorem addLine_of_listed (h : listed? line = some path) :
    set.addLine number line =
      if IsListable path then .ok (set.add (.divide path))
      else .error (.malformed number path) := by
  unfold listed? at h
  unfold addLine
  dsimp only at h ⊢
  split at h
  · cases h
  next hblank =>
    obtain rfl := Option.some.inj h
    rw [if_neg hblank, Entry.divide_ofList]
    by_cases hparts : (Text.trimChars line).takeWhile (· ≠ '/') = [] ∨
        ((Text.trimChars line).dropWhile (· ≠ '/')).drop 1 = []
    · rw [if_pos hparts, if_neg (isListable_ofList_iff.not.2 (not_not.2 hparts))]
    · rw [if_neg hparts, if_pos (isListable_ofList_iff.2 hparts)]

/-- Lines are read just if all that they list can be listed, and then with its entries. -/
theorem addLines_cases (set : EntrySet) (number : Nat) (lines : List (List Char)) :
    ((∀ path ∈ lines.filterMap listed?, IsListable path) ∧
      ∃ next, set.addLines number lines = .ok next ∧
        ∀ entry, next.has entry = true ↔
          set.has entry = true ∨ entry.path ∈ lines.filterMap listed?) ∨
    ∃ path ∈ lines.filterMap listed?, ¬IsListable path ∧
      ∃ found, set.addLines number lines = .error (.malformed found path) := by
  induction lines generalizing set number with
  | nil => exact .inl ⟨by simp, set, rfl, by simp⟩
  | cons line lines ih =>
    cases hlisted : listed? line with
    | none =>
      have hstep : set.addLines number (line :: lines) = set.addLines (number + 1) lines := by
        rw [addLines, addLine_of_not_listed hlisted]
        rfl
      rw [List.filterMap_cons_none hlisted, hstep]
      exact ih set (number + 1)
    | some path =>
      rw [List.filterMap_cons_some hlisted, addLines, addLine_of_listed hlisted]
      by_cases hpath : IsListable path
      · rw [if_pos hpath]
        obtain ⟨hlistable, next, hread, hhas⟩ | ⟨wrong, hmem, hwrong, found, hread⟩ :=
          ih (set.add (.divide path)) (number + 1)
        · refine .inl ⟨List.forall_mem_cons.2 ⟨hpath, hlistable⟩, next, hread, fun entry => ?_⟩
          rw [hhas, has_add_iff, Entry.path_divide hpath.slash_mem, List.mem_cons,
            @eq_comm _ path, or_assoc, or_left_comm]
        · exact .inr ⟨wrong, List.mem_cons_of_mem path hmem, hwrong, found, hread⟩
      · rw [if_neg hpath]
        exact .inr ⟨path, List.mem_cons_self, hpath, number, rfl⟩

end Lines

theorem not_has_empty (entry : Entry) : empty.has entry = false := by
  simp [empty, has]

/-- A text is read just if all that it lists can be listed. -/
theorem exists_ofText_eq_ok_iff {text : String} :
    (∃ set, ofText text = .ok set) ↔ ∀ path ∈ listed text, IsListable path := by
  obtain ⟨hlistable, next, hread, -⟩ | ⟨wrong, hmem, hwrong, found, hread⟩ :=
    addLines_cases empty 1 (text.toList.splitOn '\n')
  · exact iff_of_true ⟨next, hread⟩ hlistable
  · refine iff_of_false ?_ fun h => hwrong (h wrong hmem)
    rintro ⟨set, hset⟩
    cases hread.symm.trans hset

section Read

variable {text : String} {set : EntrySet}

theorem isListable_of_ofText_eq_ok (h : ofText text = .ok set) :
    ∀ path ∈ listed text, IsListable path :=
  exists_ofText_eq_ok_iff.1 ⟨set, h⟩

/-- What is read has the entries of the paths that are listed, and no others. -/
theorem has_iff_of_ofText_eq_ok (h : ofText text = .ok set) (entry : Entry) :
    set.has entry = true ↔ entry.path ∈ listed text := by
  obtain ⟨-, next, hread, hhas⟩ | ⟨wrong, -, -, found, hread⟩ :=
    addLines_cases empty 1 (text.toList.splitOn '\n')
  · obtain rfl := Except.ok.inj (hread.symm.trans h)
    rw [hhas, not_has_empty, Bool.false_eq_true, false_or]
    rfl
  · cases hread.symm.trans h

theorem has_divide_of_ofText_eq_ok (h : ofText text = .ok set) {path : String}
    (hpath : path ∈ listed text) : set.has (.divide path) = true := by
  rw [has_iff_of_ofText_eq_ok h,
    Entry.path_divide (isListable_of_ofText_eq_ok h path hpath).slash_mem]
  exact hpath

end Read

end EntrySet

end Typikon
