import Typikon.Document.Resolution
import Typikon.Proofs.Index.Path
import Typikon.Proofs.Text.Writing

/-!
What resolving a leaf comes to: the entry that an index is asked for, and the reference that the
leaf stands for if nothing is wrong with its path or its overrides.
-/

namespace Typikon

namespace Override

/-- The number that is given in place of the day's own: the last of its kind, if it is from 1 to a
limit. -/
def effective? (overrides : List Override) (kind : OverrideKind) (limit : Nat) : Option Nat :=
  ((last? overrides kind).map value).bind (Resolution.withinLimit? limit)

theorem last?_eq_none_iff {overrides : List Override} {kind : OverrideKind} :
    last? overrides kind = none ↔ ∀ o ∈ overrides, o.kind ≠ kind := by
  simp [last?]

/-- Every override is of the mode or of the day. -/
theorem isSome_last?_iff {overrides : List Override} :
    ((last? overrides .mode).isSome ∨ (last? overrides .day).isSome) ↔ overrides ≠ [] := by
  cases overrides with
  | nil => simp [last?]
  | cons o overrides =>
    refine iff_of_true ?_ (List.cons_ne_nil o overrides)
    simp only [Option.isSome_iff_ne_none, ne_eq, last?_eq_none_iff]
    cases hkind : o.kind with
    | mode => exact .inl fun h => h o List.mem_cons_self hkind
    | day => exact .inr fun h => h o List.mem_cons_self hkind

end Override

/-- The entry that an index is asked for at a leaf. A literal asks for none, and neither does a path
that has not exactly one slash. With overrides, a relative path asks only in the Octoechos. -/
def Content.wanted? (day : LiturgicalDay) : Content → Option Entry
  | .literal _ => none
  | .absolute path | .media path =>
    if path.toList.count '/' = 1 then some (.divide path) else none
  | .relative path overrides =>
    let named : Entry := .divide path
    if path.toList.count '/' = 1 ∧ (overrides = [] ∨ IsOctoechosTopic named.topic) then
      some ⟨day.topic named.topic (Override.effective? overrides .mode 8)
        (Override.effective? overrides .day 7), named.key⟩
    else none

/-- The topic that stands for another on a day has a slash only if that one has. -/
theorem LiturgicalDay.slash_not_mem_topic (d : LiturgicalDay) {named : String}
    (mode weekday : Option Nat) (h : '/' ∉ named.toList) :
    '/' ∉ (d.topic named mode weekday).toList := by
  have hdigits (k : Nat) : '/' ∉ Nat.toDigits 10 k := fun hslash =>
    Bool.noConfusion (Text.Decimal.isDigit_of_mem_toDigits hslash)
  have hpadded (n : Nat) : '/' ∉ (Text.Decimal.padded 2 n).toList := fun hslash =>
    Bool.noConfusion (Text.Decimal.isDigit_of_mem_padded hslash)
  have htext (s : String) : toString s = s := rfl
  have hnat (n : Nat) : '/' ∉ (toString n).toList := by
    rw [Nat.toString_eq_repr, Nat.toList_repr]
    exact hdigits n
  have hint (n : Int) : '/' ∉ (toString n).toList := by
    obtain ⟨k, ⟨-, hlist⟩ | ⟨-, hlist⟩⟩ := Text.Decimal.toList_toString_cases n
    · rw [hlist]
      exact hdigits k
    · rw [hlist]
      simp [hdigits]
  unfold topic
  repeat' split
  · simp [htext, hdigits]
  · simp [htext, hpadded]
  · simp [htext, hpadded]
  · simp only [htext, String.toList_append, List.mem_append, hint, or_false]
    decide
  · exact h

/-- The entry that another comes to on a day has no slashes of its own if that one has none. -/
theorem LiturgicalDay.isPlain_topic (d : LiturgicalDay) {named : Entry} (h : named.IsPlain)
    (mode weekday : Option Nat) : (Entry.mk (d.topic named.topic mode weekday) named.key).IsPlain :=
  ⟨d.slash_not_mem_topic mode weekday h.topic, h.key⟩

/-- No entry that a leaf asks for has slashes of its own. -/
theorem Content.isPlain_of_wanted? {content : Content} {day : LiturgicalDay} {entry : Entry}
    (h : content.wanted? day = some entry) : entry.IsPlain := by
  cases content with
  | literal text => cases h
  | absolute path | media path =>
    obtain ⟨hcount, hentry⟩ := Option.ite_none_right_eq_some.1 h
    obtain rfl := Option.some.inj hentry
    exact Entry.isPlain_divide hcount
  | relative path overrides =>
    obtain ⟨⟨hcount, -⟩, hentry⟩ := Option.ite_none_right_eq_some.1 h
    obtain rfl := Option.some.inj hentry
    exact day.isPlain_topic (Entry.isPlain_divide hcount) _ _

namespace Resolution

theorem not_singleSlash_of_error {path : String} {cause : PathError}
    (h : Entry.ofPath path = .error cause) : path.toList.count '/' ≠ 1 := by
  intro hcount
  rw [Entry.ofPath_eq_ok_iff.2 ⟨hcount, rfl⟩] at h
  cases h

section Relative

variable {path : String} {mode day : Option Int} {entry : Entry}

theorem relative_of_error {cause : PathError} (h : Entry.ofPath path = .error cause)
    (d : LiturgicalDay) :
    relative path mode day d = ⟨.relative path path none none, [.path cause], none⟩ := by
  simp [relative, h]

/-- Overrides outside the Octoechos are refused, and leave the path as it is. -/
theorem relative_of_outsideOctoechos (h : Entry.ofPath path = .ok entry)
    (hgiven : mode.isSome ∨ day.isSome) (houtside : ¬IsOctoechosTopic entry.topic)
    (d : LiturgicalDay) :
    relative path mode day d =
      ⟨.relative path path (mode.bind (withinLimit? 8)) (day.bind (withinLimit? 7)),
        beyondLimit 8 .modeOutOfRange mode ++ beyondLimit 7 .dayOutOfRange day ++
          [.overridesOutsideOctoechos],
        none⟩ := by
  simp [relative, h, hgiven, houtside]

theorem absolute_path (h : entry.IsPlain) :
    absolute entry.path = ⟨.absolute entry.path, [], some entry⟩ := by
  rw [absolute, h.ofPath_path]

/-- The path that a relative one comes to is divided again, which cannot fail: neither the topic of
the day nor the key brings in a slash. -/
theorem relative_of_ok (h : Entry.ofPath path = .ok entry)
    (hallowed : (mode.isSome ∨ day.isSome) → IsOctoechosTopic entry.topic) (d : LiturgicalDay) :
    relative path mode day d =
      let resolved : Entry :=
        ⟨d.topic entry.topic (mode.bind (withinLimit? 8)) (day.bind (withinLimit? 7)), entry.key⟩
      ⟨.relative path resolved.path (mode.bind (withinLimit? 8)) (day.bind (withinLimit? 7)),
        beyondLimit 8 .modeOutOfRange mode ++ beyondLimit 7 .dayOutOfRange day,
        some resolved⟩ := by
  have hrefused : ¬((mode.isSome ∨ day.isSome) ∧ ¬IsOctoechosTopic entry.topic) :=
    fun ⟨hgiven, houtside⟩ => houtside (hallowed hgiven)
  have hplain : entry.IsPlain := by
    obtain ⟨hslash, rfl⟩ := Entry.ofPath_eq_ok_iff.1 h
    exact Entry.isPlain_divide hslash
  simp [relative, h, hrefused, absolute_path (d.isPlain_topic hplain _ _)]

/-- What is given in place of the mode and the day of the week is given in the Octoechos alone. -/
def IsAllowed (path : String) (mode day : Option Int) : Prop :=
  mode.isSome ∨ day.isSome → IsOctoechosTopic (Entry.divide path).topic

theorem isAllowed_overrides_iff {overrides : List Override} :
    IsAllowed path ((Override.last? overrides .mode).map Override.value)
        ((Override.last? overrides .day).map Override.value) ↔
      overrides = [] ∨ IsOctoechosTopic (Entry.divide path).topic := by
  rw [IsAllowed, Option.isSome_map, Option.isSome_map, Override.isSome_last?_iff,
    Decidable.or_iff_not_imp_left]

/-- The entry that a relative path comes to on a day, with the numbers that are given with it. -/
def namedEntry (path : String) (mode day : Option Nat) (d : LiturgicalDay) : Entry :=
  ⟨d.topic (Entry.divide path).topic mode day, (Entry.divide path).key⟩

/-- A path has not one slash, or its numbers are refused, or it comes to an entry. -/
theorem relative_cases (path : String) (mode day : Option Int) (d : LiturgicalDay) :
    let mode? := mode.bind (withinLimit? 8)
    let day? := day.bind (withinLimit? 7)
    let named := namedEntry path mode? day? d
    let beyond := beyondLimit 8 .modeOutOfRange mode ++ beyondLimit 7 .dayOutOfRange day
    (path.toList.count '/' ≠ 1 ∧ ∃ cause,
      relative path mode day d = ⟨.relative path path none none, [.path cause], none⟩) ∨
    (path.toList.count '/' = 1 ∧ ¬IsAllowed path mode day ∧
      relative path mode day d =
        ⟨.relative path path mode? day?, beyond ++ [.overridesOutsideOctoechos], none⟩) ∨
    (path.toList.count '/' = 1 ∧ IsAllowed path mode day ∧
      relative path mode day d = ⟨.relative path named.path mode? day?, beyond, some named⟩) := by
  cases h : Entry.ofPath path with
  | error cause => exact .inl ⟨not_singleSlash_of_error h, cause, relative_of_error h d⟩
  | ok entry =>
    obtain ⟨hslash, rfl⟩ := Entry.ofPath_eq_ok_iff.1 h
    by_cases hallowed : IsAllowed path mode day
    · exact .inr (.inr ⟨hslash, hallowed, relative_of_ok h hallowed d⟩)
    · obtain ⟨hgiven, houtside⟩ := Classical.not_imp.1 hallowed
      exact .inr (.inl ⟨hslash, hallowed, relative_of_outsideOctoechos h hgiven houtside d⟩)

end Relative

theorem entry?_absolute (path : String) :
    Resolution.entry? (absolute path) =
      if path.toList.count '/' = 1 then some (.divide path) else none := by
  unfold absolute
  cases h : Entry.ofPath path with
  | ok entry =>
    obtain ⟨hcount, rfl⟩ := Entry.ofPath_eq_ok_iff.1 h
    rw [if_pos hcount]
  | error cause => rw [if_neg (not_singleSlash_of_error h)]

theorem entry?_ofContent (day : LiturgicalDay) (content : Content) :
    Resolution.entry? (ofContent day content) = content.wanted? day := by
  cases content with
  | literal text => rfl
  | absolute path => exact entry?_absolute path
  | media path => exact entry?_absolute path
  | relative path overrides =>
    rw [ofContent, Content.wanted?]
    obtain ⟨hslash, cause, h⟩ | ⟨-, hrefused, h⟩ | ⟨hslash, hallowed, h⟩ :=
      relative_cases path ((Override.last? overrides .mode).map Override.value)
        ((Override.last? overrides .day).map Override.value) day
    · rw [h, if_neg fun hasks => hslash hasks.1]
    · rw [h, if_neg fun hasks => hrefused (isAllowed_overrides_iff.2 hasks.2)]
    · rw [h, if_pos ⟨hslash, isAllowed_overrides_iff.1 hallowed⟩]
      rfl

theorem path_of_reference_relative {path path' resolved : String} {mode day mode' day' : Option _}
    {d : LiturgicalDay}
    (h : (relative path mode day d).reference = .relative path' resolved mode' day') :
    path' = path := by
  unfold relative at h
  split at h
  · cases h
    rfl
  · dsimp only at h
    split at h <;> cases h <;> rfl

/-- Only a relative leaf has a relative reference, which tells its path. -/
theorem exists_eq_of_reference_relative {today : LiturgicalDay} {content : Content}
    {path resolved : String} {mode day : Option Nat}
    (h : (ofContent today content).reference = .relative path resolved mode day) :
    ∃ overrides, content = .relative path overrides := by
  cases content with
  | literal text => cases h
  | absolute path' | media path' =>
    rw [ofContent, absolute] at h
    split at h <;> cases h
  | relative path' overrides =>
    rw [ofContent] at h
    exact ⟨overrides, by rw [path_of_reference_relative h]⟩

/-- With nothing wrong with it, a relative leaf is resolved to the topic that its own has on the
day, with the mode and the day of the week that are given for it, and to its own key. -/
theorem reference_of_problems_eq_nil {today : LiturgicalDay} {path : String}
    {overrides : List Override} (h : (ofContent today (.relative path overrides)).problems = []) :
    let mode := Override.effective? overrides .mode 8
    let day := Override.effective? overrides .day 7
    path.toList.count '/' = 1 ∧
      (ofContent today (.relative path overrides)).reference =
        .relative path (today.topic (Entry.divide path).topic mode day ++ "/" ++
          (Entry.divide path).key) mode day := by
  rw [ofContent] at h ⊢
  obtain ⟨-, cause, heq⟩ | ⟨-, -, heq⟩ | ⟨hslash, -, heq⟩ :=
    relative_cases path ((Override.last? overrides .mode).map Override.value)
      ((Override.last? overrides .day).map Override.value) today
  · rw [heq] at h
    cases h
  · rw [heq] at h
    simp at h
  · rw [heq]
    exact ⟨hslash, rfl⟩

end Resolution

end Typikon
