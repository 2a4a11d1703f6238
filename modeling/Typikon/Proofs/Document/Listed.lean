import Typikon.Proofs.Document.Acceptance
import Typikon.Proofs.Index.Listing

/-!
References to what a text lists. A text may list a path with more than one slash, and the set that
it is read as has an entry of that path. A reference to it is refused for its slashes all the same,
and no leaf asks for such an entry.
-/

namespace Typikon

/-- What a leaf asks for has a path with one slash. -/
theorem Content.count_path_of_wanted? {content : Content} {day : LiturgicalDay} {entry : Entry}
    (h : content.wanted? day = some entry) : entry.path.toList.count '/' = 1 :=
  (Content.isPlain_of_wanted? h).count_path

namespace Resolution

section Absolute

variable {path : String}

theorem absolute_of_count_eq_one (h : path.toList.count '/' = 1) :
    absolute path = ⟨.absolute path, [], some (.divide path)⟩ := by
  rw [absolute, Entry.ofPath_eq_ok_iff.2 ⟨h, rfl⟩]

theorem absolute_of_count_ne_one (hslash : '/' ∈ path.toList) (hcount : path.toList.count '/' ≠ 1) :
    absolute path = ⟨.absolute path, [.path (.manySlashes path)], none⟩ :=
  absolute_of_error (Entry.ofPath_of_count_ne_one hslash hcount)

end Absolute

section Listed

variable {text : String} {set : EntrySet} {path : String}

theorem check_listed_of_count_eq_one (hset : EntrySet.ofText text = .ok set)
    (hpath : path ∈ EntrySet.listed text) (hcount : path.toList.count '/' = 1) :
    check EntrySet.index (absolute path) set = (.ok [], set) := by
  rw [absolute_of_count_eq_one hcount, check]
  dsimp only
  rw [EntrySet.index, EntrySet.has_divide_of_ofText_eq_ok hset hpath]

theorem check_listed_of_count_ne_one (hset : EntrySet.ofText text = .ok set)
    (hpath : path ∈ EntrySet.listed text) (hcount : path.toList.count '/' ≠ 1) :
    check EntrySet.index (absolute path) set = (.ok [.path (.manySlashes path)], set) := by
  have hslash := (EntrySet.isListable_of_ofText_eq_ok hset path hpath).slash_mem
  rw [absolute_of_count_ne_one hslash hcount, check_of_entry?_eq_none rfl]

end Listed

/-- The set that a text is read as has the entries of the paths that the text lists, and no others.
A reference to a listed path is accepted just if the path has no second slash. If it has one, this
is the only problem, the set has an entry of the path notwithstanding, and whatever a leaf asks for,
on whatever day, has another path. -/
theorem check_absolute_of_ofText_eq_ok {text : String} {set : EntrySet}
    (hset : EntrySet.ofText text = .ok set) :
    (∀ entry, set.has entry = true ↔ entry.path ∈ EntrySet.listed text) ∧
    ∀ path ∈ EntrySet.listed text,
      set.has (.divide path) = true ∧
      (check EntrySet.index (absolute path) set = (.ok [], set) ↔ path.toList.count '/' = 1) ∧
      (path.toList.count '/' ≠ 1 →
        check EntrySet.index (absolute path) set = (.ok [.path (.manySlashes path)], set) ∧
        ∀ (content : Content) (day : LiturgicalDay), ∀ entry ∈ content.wanted? day,
          entry.path ≠ path) := by
  refine ⟨EntrySet.has_iff_of_ofText_eq_ok hset, fun path hpath => ⟨?has, ?accepted, ?refused⟩⟩
  case has => exact EntrySet.has_divide_of_ofText_eq_ok hset hpath
  case accepted =>
    refine ⟨fun haccepted => ?_, check_listed_of_count_eq_one hset hpath⟩
    refine Decidable.of_not_not fun hcount => ?_
    cases haccepted.symm.trans (check_listed_of_count_ne_one hset hpath hcount)
  case refused =>
    intro hcount
    refine ⟨check_listed_of_count_ne_one hset hpath hcount, fun content day entry hentry heq => ?_⟩
    exact hcount (heq ▸ Content.count_path_of_wanted? hentry)

/-- Two lines with a path each, the second of which is read and then refused. -/
theorem check_absolute_of_ofText_eq_ok_twoSlashes :
    ∃ set, EntrySet.ofText "# actors\nactors/Priest\n\n  a/b/c \n" = .ok set ∧
      check EntrySet.index (absolute "actors/Priest") set = (.ok [], set) ∧
      check EntrySet.index (absolute "a/b/c") set =
        (.ok [.path (.manySlashes "a/b/c")], set) := by
  obtain ⟨set, hset⟩ : ∃ set, EntrySet.ofText "# actors\nactors/Priest\n\n  a/b/c \n" = .ok set :=
    EntrySet.exists_ofText_eq_ok_iff.2 (by decide)
  have hlisted := (check_absolute_of_ofText_eq_ok hset).2
  refine ⟨set, hset, ?_, ?_⟩
  · exact (hlisted "actors/Priest" (by decide)).2.1.2 (by decide)
  · exact ((hlisted "a/b/c" (by decide)).2.2 (by decide)).1

end Resolution

/-- A text that is read may list a path that is refused. -/
theorem EntrySet.not_check_absolute_of_ofText_eq_ok :
    ¬∀ text set, EntrySet.ofText text = .ok set → ∀ path ∈ listed text,
      (Resolution.check index (.absolute path) set).1 = .ok [] := by
  intro h
  obtain ⟨set, hset⟩ : ∃ set, ofText "a/b/c\n" = .ok set :=
    exists_ofText_eq_ok_iff.2 (by decide)
  cases h "a/b/c\n" set hset "a/b/c" (by decide)

end Typikon
