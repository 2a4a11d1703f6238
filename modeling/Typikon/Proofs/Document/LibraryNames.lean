import Mathlib
import Typikon.Proofs.Index.Path
import Typikon.Proofs.Text.Trimming
import Typikon.Stored.Document

/-!
Names of libraries. A text names a library just if it is a name with white space around it: three
parts of ASCII letters and digits, joined by underscores. Case apart, one name names one library,
and the text of a library is its name in lowercase. No name has a slash, so that a path tells the
library that it is to be looked up in.
-/

namespace Typikon

namespace LibraryId

/-- A part of a name: ASCII letters and digits, at least one. -/
def IsPart (part : List Char) : Prop :=
  part ≠ [] ∧ ∀ c ∈ part, c.isAlphanum = true

/-- Three parts joined by underscores. -/
def joined (language country realm : List Char) : List Char :=
  language ++ '_' :: (country ++ '_' :: realm)

/-- A name of a library, in any case. -/
def IsName (name : List Char) : Prop :=
  ∃ language country realm, IsPart language ∧ IsPart country ∧ IsPart realm ∧
    name = joined language country realm

/-- A text that is a name with white space around it. -/
def Holds (text : String) (name : List Char) : Prop :=
  IsName name ∧ ∃ before after, (∀ c ∈ before, Text.isBlank c = true) ∧
    (∀ c ∈ after, Text.isBlank c = true) ∧ text.toList = before ++ (name ++ after)

section Parts

variable {part language country realm name : List Char}

theorem isPart_eq_true_iff : isPart part = true ↔ IsPart part := by
  simp [isPart, IsPart]

theorem IsPart.not_mem {c : Char} (h : IsPart part) (hc : c.isAlphanum = false) : c ∉ part := by
  intro hmem
  rw [h.2 c hmem] at hc
  cases hc

theorem IsPart.map_toLower (h : IsPart part) : IsPart (part.map Char.toLower) := by
  refine ⟨by simpa using h.1, ?_⟩
  intro c hc
  obtain ⟨d, hd, rfl⟩ := List.mem_map.1 hc
  by_cases hupper : d.isUpper = true
  · simp [Char.isAlphanum, Char.isAlpha, hupper]
  · rw [Char.toLower_eq_of_not_isUpper hupper]
    exact h.2 d hd

theorem lowered_map_toLower (part : List Char) :
    lowered (part.map Char.toLower) = lowered part := by
  have hcase : Char.toLower ∘ Char.toLower = Char.toLower := by
    funext c
    exact c.toLower_toLower_eq_toLower
  rw [lowered, List.map_map, hcase, lowered]

theorem map_toLower_joined :
    (joined language country realm).map Char.toLower =
      joined (language.map Char.toLower) (country.map Char.toLower) (realm.map Char.toLower) := by
  simp [joined]

theorem IsName.map_toLower (h : IsName name) : IsName (name.map Char.toLower) := by
  obtain ⟨language, country, realm, hlanguage, hcountry, hrealm, rfl⟩ := h
  exact ⟨_, _, _, hlanguage.map_toLower, hcountry.map_toLower, hrealm.map_toLower,
    map_toLower_joined⟩

theorem splitOn_joined (hlanguage : IsPart language) (hcountry : IsPart country)
    (hrealm : IsPart realm) :
    (joined language country realm).splitOn '_' = [language, country, realm] := by
  rw [joined, List.splitOn_append_cons_self_of_not_mem (hlanguage.not_mem (by decide)),
    List.splitOn_append_cons_self_of_not_mem (hcountry.not_mem (by decide)),
    List.splitOn_eq_singleton (hrealm.not_mem (by decide))]

theorem IsName.forall_mem (h : IsName name) : ∀ c ∈ name, c.isAlphanum = true ∨ c = '_' := by
  obtain ⟨language, country, realm, hlanguage, hcountry, hrealm, rfl⟩ := h
  intro c hc
  simp only [joined, List.mem_append, List.mem_cons] at hc
  rcases hc with hc | rfl | hc | rfl | hc
  · exact .inl (hlanguage.2 c hc)
  · exact .inr rfl
  · exact .inl (hcountry.2 c hc)
  · exact .inr rfl
  · exact .inl (hrealm.2 c hc)

theorem IsName.trimChars_append {before after : List Char} (h : IsName name)
    (hbefore : ∀ c ∈ before, Text.isBlank c = true) (hafter : ∀ c ∈ after, Text.isBlank c = true) :
    Text.trimChars (before ++ (name ++ after)) = name := by
  apply Text.trimChars_append hbefore hafter
  · intro c hc
    rcases h.forall_mem c hc with halnum | rfl
    · exact Text.isBlank_eq_false_of_isAlphanum halnum
    · decide
  · obtain ⟨language, country, realm, -, -, -, rfl⟩ := h
    simp [joined]

end Parts

section Read

variable {text s t : String} {name : List Char} {id a b : LibraryId}

theorem Holds.trimChars_eq (h : Holds text name) : Text.trimChars text.toList = name := by
  obtain ⟨hname, before, after, hbefore, hafter, htext⟩ := h
  rw [htext]
  exact hname.trimChars_append hbefore hafter

theorem holds_trimChars (h : IsName (Text.trimChars text.toList)) :
    Holds text (Text.trimChars text.toList) :=
  ⟨h, Text.exists_append_trimChars text.toList⟩

/-- A text is read just if it holds a name, and then as the lowercase parts of the name. -/
theorem read_eq_ok_iff :
    read text = .ok id ↔
      ∃ language country realm, IsPart language ∧ IsPart country ∧ IsPart realm ∧
        Text.trimChars text.toList = joined language country realm ∧
        id = ⟨lowered language, lowered country, lowered realm⟩ := by
  constructor
  · intro h
    unfold read at h
    split at h
    next language country realm hsplit =>
      split at h
      next hparts =>
        simp only [Bool.and_eq_true, isPart_eq_true_iff] at hparts
        obtain ⟨⟨hlanguage, hcountry⟩, hrealm⟩ := hparts
        have hjoined : ['_'].intercalate ((Text.trimChars text.toList).splitOn '_') =
            Text.trimChars text.toList :=
          List.intercalate_splitOn '_'
        rw [hsplit] at hjoined
        refine ⟨language, country, realm, hlanguage, hcountry, hrealm, ?_, (Except.ok.inj h).symm⟩
        rw [← hjoined]
        simp [joined]
      · cases h
    · cases h
  · rintro ⟨language, country, realm, hlanguage, hcountry, hrealm, htext, rfl⟩
    have hparts : (isPart language && isPart country && isPart realm) = true := by
      simp only [Bool.and_eq_true, isPart_eq_true_iff]
      exact ⟨⟨hlanguage, hcountry⟩, hrealm⟩
    rw [read, htext, splitOn_joined hlanguage hcountry hrealm]
    exact if_pos hparts

theorem exists_read_eq_ok_iff : (∃ id, read text = .ok id) ↔ ∃ name, Holds text name := by
  constructor
  · rintro ⟨id, h⟩
    obtain ⟨language, country, realm, hlanguage, hcountry, hrealm, htext, -⟩ := read_eq_ok_iff.1 h
    exact ⟨_, holds_trimChars ⟨language, country, realm, hlanguage, hcountry, hrealm, htext⟩⟩
  · rintro ⟨name, h⟩
    obtain ⟨language, country, realm, hlanguage, hcountry, hrealm, hname⟩ := h.1
    exact ⟨_, read_eq_ok_iff.2 ⟨language, country, realm, hlanguage, hcountry, hrealm,
      h.trimChars_eq.trans hname, rfl⟩⟩

theorem eq_of_read_eq_error {e : LibraryIdError} (h : read text = .error e) : e = ⟨text⟩ := by
  unfold read at h
  split at h
  · split at h
    · cases h
    · exact (Except.error.inj h).symm
  · exact (Except.error.inj h).symm

theorem read_of_not_holds (h : ¬∃ name, Holds text name) : read text = .error ⟨text⟩ := by
  cases hread : read text with
  | ok id => exact absurd (exists_read_eq_ok_iff.1 ⟨id, hread⟩) h
  | error e => rw [eq_of_read_eq_error hread]

theorem toList_text_lowered (language country realm : List Char) :
    (⟨lowered language, lowered country, lowered realm⟩ : LibraryId).text.toList =
      (joined language country realm).map Char.toLower := by
  simp [LibraryId.text, lowered, joined]

theorem toList_text_of_read (h : read text = .ok id) :
    id.text.toList = (Text.trimChars text.toList).map Char.toLower := by
  obtain ⟨language, country, realm, -, -, -, htext, rfl⟩ := read_eq_ok_iff.1 h
  rw [toList_text_lowered, htext]

theorem isName_text_of_read (h : read text = .ok id) : IsName id.text.toList := by
  obtain ⟨name, hname⟩ := exists_read_eq_ok_iff.1 ⟨id, h⟩
  rw [toList_text_of_read h, hname.trimChars_eq]
  exact hname.1.map_toLower

/-- The text of a library names that library. -/
theorem read_text_of_read (h : read text = .ok id) : read id.text = .ok id := by
  have htrim : Text.trimChars ([] ++ (id.text.toList ++ [])) = id.text.toList :=
    (isName_text_of_read h).trimChars_append (List.forall_mem_nil _) (List.forall_mem_nil _)
  rw [List.nil_append, List.append_nil] at htrim
  obtain ⟨language, country, realm, hlanguage, hcountry, hrealm, -, rfl⟩ := read_eq_ok_iff.1 h
  refine read_eq_ok_iff.2 ⟨_, _, _, hlanguage.map_toLower, hcountry.map_toLower,
    hrealm.map_toLower, ?_, ?_⟩
  · rw [htrim, toList_text_lowered, map_toLower_joined]
  · simp only [lowered_map_toLower]

theorem eq_of_text_eq (ha : read s = .ok a) (hb : read t = .ok b) (h : a.text = b.text) :
    a = b := by
  have hread := read_text_of_read ha
  rw [h, read_text_of_read hb] at hread
  exact (Except.ok.inj hread).symm

theorem eq_iff_map_toLower_eq (ha : read s = .ok a) (hb : read t = .ok b) :
    a = b ↔ (Text.trimChars s.toList).map Char.toLower =
      (Text.trimChars t.toList).map Char.toLower := by
  rw [← toList_text_of_read ha, ← toList_text_of_read hb, String.toList_inj]
  constructor
  · intro h
    rw [h]
  · exact eq_of_text_eq ha hb

theorem slash_not_mem_text (h : read text = .ok id) : '/' ∉ id.text.toList := by
  intro hslash
  rcases (isName_text_of_read h).forall_mem _ hslash with halnum | hunderscore
  · exact absurd halnum (by decide)
  · exact absurd hunderscore (by decide)

end Read

end LibraryId

namespace Reference

open LibraryId

variable {s t : String} {a b : LibraryId} {p q : Reference}

theorem exists_path?_eq_some (h : ∀ text, p ≠ .literal text) : ∃ path, p.path? = some path := by
  cases p with
  | literal text => exact absurd rfl (h text)
  | relative path resolved mode weekday => exact ⟨resolved, rfl⟩
  | absolute path => exact ⟨path, rfl⟩

/-- The first slash of a path ends the text of the library. -/
theorem divide_qualified {path : String} (h : read s = .ok a) :
    Entry.divide (a.text ++ "/" ++ path) = ⟨a.text, path⟩ := by
  have hpath : (a.text ++ "/" ++ path).toList = a.text.toList ++ '/' :: path.toList := by simp
  rw [Entry.divide_of_toList_eq (slash_not_mem_text h) hpath, String.ofList_toList,
    String.ofList_toList]

theorem eq_of_qualified?_eq (ha : read s = .ok a) (hb : read t = .ok b)
    (hp : ∀ text, p ≠ .literal text) (h : p.qualified? a = q.qualified? b) :
    a = b ∧ p.path? = q.path? := by
  obtain ⟨path, hpath⟩ := exists_path?_eq_some hp
  rw [qualified?, hpath, Option.map_some] at h
  obtain ⟨other, hother, hsame⟩ := Option.map_eq_some_iff.1 h.symm
  have hdivide := congrArg Entry.divide hsame
  rw [divide_qualified hb, divide_qualified ha] at hdivide
  obtain ⟨htext, rfl⟩ := Entry.mk.inj hdivide
  exact ⟨(eq_of_text_eq hb ha htext).symm, by rw [hpath, hother]⟩

end Reference

namespace LibraryId

/-- A text is read as a library just if it is a name with white space around it, and else it is
refused. The library is that of any name with the same letters, and its text is the name in
lowercase, which is read and restored as that library. A path to look up tells the library and the
path in it. -/
theorem read_canonical_and_eq_of_qualified?_eq :
    (∀ text, (∃ id, read text = .ok id) ↔ ∃ name, Holds text name) ∧
      (∀ text, (¬∃ name, Holds text name) → read text = .error ⟨text⟩) ∧
      (∀ text name id, Holds text name → read text = .ok id →
        (Text.trim text).toList = name ∧ id.text.toList = name.map Char.toLower ∧
          read id.text = .ok id ∧ ofJson? (.string id.text) = some id) ∧
      (∀ s t name other a b, Holds s name → Holds t other → read s = .ok a → read t = .ok b →
        (a = b ↔ name.map Char.toLower = other.map Char.toLower)) ∧
      ∀ s t a b, read s = .ok a → read t = .ok b → ∀ p q : Reference,
        (∀ text, p ≠ .literal text) → p.qualified? a = q.qualified? b →
          a = b ∧ p.path? = q.path? := by
  refine ⟨fun text => exists_read_eq_ok_iff, fun text => read_of_not_holds, ?_, ?_, ?_⟩
  · intro text name id hname h
    have hread := read_text_of_read h
    refine ⟨?_, ?_, hread, ?_⟩
    · rw [Text.trim, String.toList_ofList, hname.trimChars_eq]
    · rw [toList_text_of_read h, hname.trimChars_eq]
    · change (read id.text).toOption = some id
      rw [hread]
      rfl
  · intro s t name other a b hname hother ha hb
    rw [eq_iff_map_toLower_eq ha hb, hname.trimChars_eq, hother.trimChars_eq]
  · intro s t a b ha hb p q hp h
    exact Reference.eq_of_qualified?_eq ha hb hp h

/-- Neither capitals nor a no-break space before a name make another library. -/
theorem read_canonical_and_eq_of_qualified?_eq_capitals :
    ∃ a b, read "\u00a0EN_us_Dedes" = .ok a ∧ read "en_US_dedes" = .ok b ∧
      a.text.toList = "en_us_dedes".toList ∧ ofJson? (.string a.text) = some a ∧
      a = b ∧ (Reference.absolute "actors/Deacon").path? =
        (Reference.relative "actors/*" "actors/Deacon" none none).path? := by
  obtain ⟨hread, -, hcanonical, hletters, hqualified⟩ := read_canonical_and_eq_of_qualified?_eq
  have hname : Holds "\u00a0EN_us_Dedes" (joined ['E', 'N'] ['u', 's'] ['D', 'e', 'd', 'e', 's']) :=
    ⟨⟨_, _, _, isPart_eq_true_iff.1 (by decide), isPart_eq_true_iff.1 (by decide),
      isPart_eq_true_iff.1 (by decide), rfl⟩,
      ['\u00a0'], [], List.forall_mem_singleton.2 (by decide), List.forall_mem_nil _, rfl⟩
  have hother : Holds "en_US_dedes" (joined ['e', 'n'] ['U', 'S'] ['d', 'e', 'd', 'e', 's']) :=
    ⟨⟨_, _, _, isPart_eq_true_iff.1 (by decide), isPart_eq_true_iff.1 (by decide),
      isPart_eq_true_iff.1 (by decide), rfl⟩,
      [], [], List.forall_mem_nil _, List.forall_mem_nil _, rfl⟩
  obtain ⟨a, ha⟩ := (hread _).2 ⟨_, hname⟩
  obtain ⟨b, hb⟩ := (hread _).2 ⟨_, hother⟩
  obtain ⟨-, htext, -, hrestored⟩ := hcanonical _ _ _ hname ha
  have hsame : a = b := (hletters _ _ _ _ _ _ hname hother ha hb).2 (by decide)
  have hlookup : (Reference.absolute "actors/Deacon").qualified? a =
      (Reference.relative "actors/*" "actors/Deacon" none none).qualified? b := by
    rw [hsame]
    rfl
  obtain ⟨-, hpath⟩ := hqualified _ _ _ _ ha hb _ _ (fun _ h => by cases h) hlookup
  exact ⟨a, b, ha, hb, htext, hrestored, hsame, hpath⟩

end LibraryId

end Typikon
