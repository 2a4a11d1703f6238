import Typikon.Proofs.Document.Resolving
import Typikon.Proofs.Draft.Questions
import Typikon.Proofs.Index.Answering

/-!
Acceptance of relative paths. A path is accepted just if it has the form of one, what is given in
place of the mode and the day of the week is in range and given in the Octoechos alone, and the
index has the entry that it comes to. The index is asked for that entry or for none.
-/

namespace Typikon

namespace Resolution

/-! ### Checking -/

section Check

variable {σ : Type} {index : Index σ} {state : σ} {r : Resolution}

/-- A resolution has its index asked for its entry, once. -/
theorem check_logged (index : Index σ) (r : Resolution) (state : σ) (log : List Entry) :
    check index.logged r (state, log) =
      ((check index r state).1, (check index r state).2, log ++ r.entry?.toList) := by
  unfold check
  cases r.entry? with
  | none => simp
  | some entry =>
    rcases hanswer : index entry state with ⟨answer, next⟩
    rcases answer with e | found
    · simp [Index.logged, hanswer]
    · cases found <;> simp [Index.logged, hanswer]

theorem check_of_entry?_eq_none (hentry : r.entry? = none) (index : Index σ) (state : σ) :
    check index r state = (.ok r.problems, state) := by
  rw [check, hentry]

theorem check_eq_ok_nil_iff :
    (check index r state).1 = .ok [] ↔
      r.problems = [] ∧ ∀ entry ∈ r.entry?, (index entry state).1 = .ok true := by
  unfold check
  cases r.entry? with
  | none => simp
  | some entry =>
    rcases hanswer : index entry state with ⟨answer, next⟩
    rcases answer with e | found
    · simp [hanswer]
    · cases found <;> simp [hanswer]

/-- An index that answers leaves the problems as they are, up to the entry that it does not have. -/
theorem exists_check_eq_ok (hindex : index.NeverFails state) (r : Resolution) :
    ∃ missing, (check index r state).1 = .ok (r.problems ++ missing) ∧
      ∀ problem ∈ missing, ∃ entry, problem = .missingEntry entry := by
  unfold check
  cases r.entry? with
  | none => exact ⟨[], by simp⟩
  | some entry =>
    obtain ⟨found, next, hanswer, -⟩ := hindex.answer entry
    cases found with
    | true => exact ⟨[], by simp [hanswer]⟩
    | false => exact ⟨[.missingEntry entry], by simp [hanswer]⟩

end Check

/-! ### Numbers that are given -/

section Given

variable {limit : Nat} {given : Option Int} {problem : Int → ReferenceProblem}

theorem withinLimit?_eq_none_iff {n : Int} :
    withinLimit? limit n = none ↔ ¬(1 ≤ n ∧ n ≤ limit) := by
  simp [withinLimit?]

theorem mem_beyondLimit {p : ReferenceProblem} :
    p ∈ beyondLimit limit problem given ↔
      ∃ n ∈ given, ¬(1 ≤ n ∧ n ≤ limit) ∧ problem n = p := by
  simp only [beyondLimit, Option.mem_toList, Option.mem_def, Option.map_eq_some_iff,
    Option.filter_eq_some_iff, decide_eq_true_eq, withinLimit?_eq_none_iff, and_assoc]

theorem beyondLimit_eq_nil_iff :
    beyondLimit limit problem given = [] ↔ ∀ n ∈ given, 1 ≤ n ∧ n ≤ limit := by
  rw [List.eq_nil_iff_forall_not_mem]
  constructor
  · intro hnone n hn
    refine Decidable.of_not_not fun hbeyond => ?_
    exact hnone (problem n) (mem_beyondLimit.mpr ⟨n, hn, hbeyond, rfl⟩)
  · intro hwithin p hp
    obtain ⟨n, hn, hbeyond, -⟩ := mem_beyondLimit.mp hp
    exact hbeyond (hwithin n hn)

theorem bind_withinLimit?_eq_map (h : ∀ n ∈ given, 1 ≤ n ∧ n ≤ limit) :
    given.bind (withinLimit? limit) = given.map Int.toNat := by
  cases given with
  | none => rfl
  | some n => exact if_pos (h n rfl)

end Given

/-! ### Relative paths -/

/-- A relative path has the form of one, and the numbers that are given with it are in range and
given in the Octoechos alone. -/
structure IsValid (path : String) (mode day : Option Int) : Prop where
  slash : path.toList.count '/' = 1
  modeWithin : ∀ m ∈ mode, 1 ≤ m ∧ m ≤ 8
  dayWithin : ∀ n ∈ day, 1 ≤ n ∧ n ≤ 7
  allowed : IsAllowed path mode day

section Relative

variable {path : String} {mode day : Option Int}

theorem exists_ofPath_eq_error (h : path.toList.count '/' ≠ 1) :
    ∃ cause, Entry.ofPath path = .error cause := by
  cases hpath : Entry.ofPath path with
  | ok entry => exact absurd (Entry.ofPath_eq_ok_iff.mp hpath).1 h
  | error cause => exact ⟨cause, rfl⟩

theorem absolute_of_error {cause : PathError} (h : Entry.ofPath path = .error cause) :
    absolute path = ⟨.absolute path, [.path cause], none⟩ := by
  rw [absolute, h]

theorem isPlain_namedEntry (hslash : path.toList.count '/' = 1) (mode day : Option Nat)
    (d : LiturgicalDay) : (namedEntry path mode day d).IsPlain :=
  d.isPlain_topic (Entry.isPlain_divide hslash) mode day

/-- Nothing is wrong with just the valid paths. -/
theorem problems_relative_eq_nil_iff (d : LiturgicalDay) :
    (relative path mode day d).problems = [] ↔ IsValid path mode day := by
  obtain ⟨hslash, cause, h⟩ | ⟨-, hrefused, h⟩ | ⟨hslash, hallowed, h⟩ :=
    relative_cases path mode day d
  · rw [h]
    exact iff_of_false (List.cons_ne_nil _ _) fun hvalid => hslash hvalid.slash
  · rw [h]
    exact iff_of_false (List.append_ne_nil_of_right_ne_nil _ (List.cons_ne_nil _ _))
      fun hvalid => hrefused hvalid.allowed
  · rw [h]
    dsimp only
    rw [List.append_eq_nil_iff, beyondLimit_eq_nil_iff, beyondLimit_eq_nil_iff]
    exact ⟨fun ⟨hmode, hday⟩ => ⟨hslash, hmode, hday, hallowed⟩,
      fun hvalid => ⟨hvalid.modeWithin, hvalid.dayWithin⟩⟩

theorem IsValid.entry?_relative (h : IsValid path mode day) (d : LiturgicalDay) :
    Resolution.entry? (relative path mode day d) =
      some (namedEntry path (mode.map Int.toNat) (day.map Int.toNat) d) := by
  obtain ⟨hslash, -, -⟩ | ⟨-, hrefused, -⟩ | ⟨-, -, heq⟩ := relative_cases path mode day d
  · exact absurd h.slash hslash
  · exact absurd h.allowed hrefused
  · rw [heq, bind_withinLimit?_eq_map h.modeWithin, bind_withinLimit?_eq_map h.dayWithin]

/-- An index is asked for nothing, or for the entry that a path with one slash comes to. -/
theorem entry?_relative_cases (path : String) (mode day : Option Int) (d : LiturgicalDay) :
    Resolution.entry? (relative path mode day d) = none ∨
      path.toList.count '/' = 1 ∧
        Resolution.entry? (relative path mode day d) =
          some (namedEntry path (mode.bind (withinLimit? 8)) (day.bind (withinLimit? 7)) d) := by
  obtain ⟨-, cause, h⟩ | ⟨-, -, h⟩ | ⟨hslash, -, h⟩ := relative_cases path mode day d
  · exact .inl (congrArg entry? h)
  · exact .inl (congrArg entry? h)
  · exact .inr ⟨hslash, congrArg entry? h⟩

theorem exists_reference_relative (path : String) (mode day : Option Int) (d : LiturgicalDay) :
    ∃ resolved mode' day',
      (relative path mode day d).reference = .relative path resolved mode' day' := by
  obtain ⟨-, cause, h⟩ | ⟨-, -, h⟩ | ⟨-, -, h⟩ := relative_cases path mode day d
  · exact ⟨_, _, _, congrArg reference h⟩
  · exact ⟨_, _, _, congrArg reference h⟩
  · exact ⟨_, _, _, congrArg reference h⟩

/-- In the Octoechos the numbers out of range are reported and then count as not given. -/
theorem relative_of_octoechos (hslash : path.toList.count '/' = 1)
    (htopic : IsOctoechosTopic (Entry.divide path).topic) (d : LiturgicalDay) :
    let mode? := mode.bind (withinLimit? 8)
    let day? := day.bind (withinLimit? 7)
    let named := namedEntry path mode? day? d
    relative path mode day d = ⟨.relative path named.path mode? day?,
      beyondLimit 8 .modeOutOfRange mode ++ beyondLimit 7 .dayOutOfRange day, some named⟩ :=
  relative_of_ok (Entry.ofPath_eq_ok_iff.mpr ⟨hslash, rfl⟩) (fun _ => htopic) d

end Relative

/-! ### Checking relative paths -/

section CheckRelative

variable {σ : Type} {index : Index σ} {state : σ} {path : String} {mode day : Option Int}

/-- Accepted are the valid paths that the index has the entry of. -/
theorem check_relative_eq_ok_nil_iff (d : LiturgicalDay) :
    (check index (relative path mode day d) state).1 = .ok [] ↔
      IsValid path mode day ∧
        (index (namedEntry path (mode.map Int.toNat) (day.map Int.toNat) d) state).1 =
          .ok true := by
  rw [check_eq_ok_nil_iff, problems_relative_eq_nil_iff]
  refine and_congr_right fun hvalid => ?_
  rw [hvalid.entry?_relative]
  simp

/-- Each number out of range is reported, and no other. -/
theorem exists_check_of_octoechos (hindex : index.NeverFails state)
    (hslash : path.toList.count '/' = 1) (htopic : IsOctoechosTopic (Entry.divide path).topic)
    (d : LiturgicalDay) :
    ∃ problems, (check index (relative path mode day d) state).1 = .ok problems ∧
      (∀ m, .modeOutOfRange m ∈ problems ↔ mode = some m ∧ ¬(1 ≤ m ∧ m ≤ 8)) ∧
      (∀ n, .dayOutOfRange n ∈ problems ↔ day = some n ∧ ¬(1 ≤ n ∧ n ≤ 7)) := by
  obtain ⟨missing, hcheck, hmissing⟩ := exists_check_eq_ok hindex (relative path mode day d)
  -- The index adds a missing entry at most, which is neither of the two problems.
  have hproblems : (relative path mode day d).problems =
      beyondLimit 8 .modeOutOfRange mode ++ beyondLimit 7 .dayOutOfRange day :=
    congrArg problems (relative_of_octoechos hslash htopic d)
  refine ⟨_, hcheck, fun m => ?_, fun n => ?_⟩
  · have hother : .modeOutOfRange m ∉ missing := fun hmem =>
      (hmissing _ hmem).elim fun _ => ReferenceProblem.noConfusion
    simp [hproblems, mem_beyondLimit, hother]
  · have hother : .dayOutOfRange n ∉ missing := fun hmem =>
      (hmissing _ hmem).elim fun _ => ReferenceProblem.noConfusion
    simp [hproblems, mem_beyondLimit, hother]

end CheckRelative

/-- Against an index that answers, a relative path is accepted just if it is valid and the index has
the entry that it comes to. A path that has not one slash has this for its only problem, and nothing
is asked. In the Octoechos a number out of range is reported, and the number of the day stands in
its place. At most one entry is asked for, which has the key of the path and no slashes of its own,
and the path itself stays in the reference. -/
theorem check_relative_of_neverFails {σ : Type} {index : Index σ} {state : σ}
    (hindex : index.NeverFails state) (path : String) (mode day : Option Int) (d : LiturgicalDay)
    (log : List Entry) :
    let mode? := mode.bind (withinLimit? 8)
    let day? := day.bind (withinLimit? 7)
    let named := namedEntry path mode? day? d
    let r := relative path mode day d
    let checked := check index.logged r (state, log)
    (checked.1 = .ok [] ↔ IsValid path mode day ∧
      (index (namedEntry path (mode.map Int.toNat) (day.map Int.toNat) d) state).1 = .ok true) ∧
    (path.toList.count '/' ≠ 1 → ∃ cause,
      checked = (.ok [.path cause], state, log) ∧
      check index.logged (absolute path) (state, log) = (.ok [.path cause], state, log)) ∧
    (path.toList.count '/' = 1 → IsOctoechosTopic (Entry.divide path).topic →
      r.reference = .relative path named.path mode? day? ∧
      ((Entry.divide path).topic = "oc.*" →
        named.topic = "oc.m" ++ toString (mode?.getD d.modeOfWeek) ++ ".d" ++
          toString (day?.getD d.weekday.number)) ∧
      ∃ problems, checked.1 = .ok problems ∧
        (∀ m, .modeOutOfRange m ∈ problems ↔ mode = some m ∧ ¬(1 ≤ m ∧ m ≤ 8)) ∧
        (∀ n, .dayOutOfRange n ∈ problems ↔ day = some n ∧ ¬(1 ≤ n ∧ n ≤ 7))) ∧
    (∃ asked, checked.2.2 = log ++ asked ∧ asked.length ≤ 1 ∧
      ∀ entry ∈ asked, entry = named ∧ entry.key = (Entry.divide path).key ∧ entry.IsPlain) ∧
    ∃ resolved mode' day', r.reference = .relative path resolved mode' day' := by
  intro mode? day? named r checked
  have hchecked : checked = ((check index r state).1, (check index r state).2,
      log ++ r.entry?.toList) := check_logged index r state log
  refine ⟨?accepted, fun hslash => ?notPath, fun hslash htopic => ?octoechos, ?asked,
    exists_reference_relative path mode day d⟩
  case accepted =>
    rw [hchecked]
    exact check_relative_eq_ok_nil_iff d
  case notPath =>
    obtain ⟨cause, h⟩ := exists_ofPath_eq_error hslash
    refine ⟨cause, ?_, ?_⟩
    · simp only [checked, r]
      rw [relative_of_error h, check_of_entry?_eq_none rfl]
    · rw [absolute_of_error h, check_of_entry?_eq_none rfl]
  case octoechos =>
    refine ⟨congrArg reference (relative_of_octoechos hslash htopic d), fun hstar => ?_, ?_⟩
    · simp only [named, namedEntry, hstar, LiturgicalDay.topic, if_pos]
      rfl
    · rw [hchecked]
      exact exists_check_of_octoechos hindex hslash htopic d
  case asked =>
    refine ⟨_, congrArg (·.2.2) hchecked, Option.length_toList_le, ?_⟩
    intro entry hentry
    rw [Option.mem_toList] at hentry
    obtain hnone | ⟨hslash, hsome⟩ := entry?_relative_cases path mode day d
    · exact absurd (hnone.symm.trans hentry) (Option.some_ne_none entry).symm
    · obtain rfl := Option.some.inj (hsome.symm.trans hentry)
      exact ⟨rfl, rfl, isPlain_namedEntry hslash _ _ d⟩

theorem check_relative_of_neverFails_full :
    Index.full.NeverFails () ∧ ∃ d, LiturgicalDay.ofDate .gregorian ⟨737425⟩ = .ok d ∧
      (check Index.full.logged (relative "oc.*/k" (some 2) none d) ((), [])).1 = .ok [] ∧
      (check Index.full.logged (relative "oc.*/k" (some 9) none d) ((), [])).1 ≠ .ok [] := by
  have hindex := Index.neverFails_full ()
  obtain ⟨d, hday⟩ : ∃ d, LiturgicalDay.ofDate .gregorian ⟨737425⟩ = .ok d := ⟨_, rfl⟩
  have hvalid : IsValid "oc.*/k" (some 2) none :=
    ⟨by decide, by decide, by decide, fun _ => by decide⟩
  have hbeyond : ¬IsValid "oc.*/k" (some 9) none := fun h =>
    absurd (h.modeWithin 9 rfl).2 (by decide)
  refine ⟨hindex, d, hday, ?_, fun haccepted => ?_⟩
  · exact (check_relative_of_neverFails hindex "oc.*/k" (some 2) none d []).1.mpr ⟨hvalid, rfl⟩
  · exact hbeyond
      ((check_relative_of_neverFails hindex "oc.*/k" (some 9) none d []).1.mp haccepted).1

end Resolution

end Typikon
