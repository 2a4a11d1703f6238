import Typikon.CommandLine.Run
import Typikon.Proofs.Calendar.NearestAnchors
import Typikon.Proofs.Diagnostic.Order
import Typikon.Proofs.Draft.Messages
import Typikon.Proofs.Draft.Questions
import Typikon.Proofs.Index.Comparing

/-!
The errors that compiling prints. There are as many as it counts, and each has a newline after it.
So each stands on a line of its own, unless its message or the identifier of the template has a
newline, which only the value of a string in the template brings there.
-/

namespace Typikon

open Text (IsLine HasLines)

/-! ### The errors of a compilation -/

namespace TemplateError

theorem isLine_compact_iff {e : TemplateError} : IsLine e.compact ↔ IsLine e.message := by
  have hcolon : IsLine ":" := Text.isLine_ofList (by decide)
  have hspace : IsLine ": " := Text.isLine_ofList (by decide)
  change IsLine (e.location.line.repr ++ ":" ++ e.location.column.repr ++ ": " ++ e.message) ↔ _
  simp only [Text.isLine_append, Text.isLine_repr_nat, hcolon, hspace, true_and]

theorem isLine_verbose_iff {e : TemplateError} :
    IsLine e.verbose ↔ IsLine e.message ∧ IsLine e.templateId := by
  have htemplate : IsLine "template " := Text.isLine_ofList (by decide)
  have hline : IsLine " Line " := Text.isLine_ofList (by decide)
  have hcolumn : IsLine " Column " := Text.isLine_ofList (by decide)
  have hspace : IsLine ": " := Text.isLine_ofList (by decide)
  change IsLine ("template " ++ e.templateId ++ " Line " ++ e.location.line.repr ++ " Column " ++
    e.location.column.repr ++ ": " ++ e.message) ↔ _
  simp only [Text.isLine_append, Text.isLine_repr_nat, htemplate, hline, hcolumn, hspace, true_and,
    and_true]
  exact and_comm

end TemplateError

namespace Compilation

variable {σ : Type} {index : Index σ} {state : σ} {name text : String} {defaults : Defaults}
  {c : Compilation}

/-- What a text is said to have wrong with it stands on one line, if its name and its strings do. -/
theorem isLine_of_mem_errors (hname : IsLine name)
    (hstrings : ∀ value ∈ (Scan.ofText text).strings, IsLine value)
    (hcompiled : (ofText index name defaults text state).1 = .ok c) {e : TemplateError}
    (he : e ∈ c.errors) : IsLine e.message ∧ IsLine e.templateId := by
  obtain ⟨d, diagnostics, next, hstart, hsettle, rfl⟩ := exists_settle_of_build_eq_ok hcompiled
  have hstarted : d.TellsOnLines := .start hname hstart
  have hsyntactic : ∀ diagnostic ∈ (Template.ofText text).errors.map SyntaxError.diagnostic,
      IsLine diagnostic.message :=
    List.forall_mem_map.mpr fun _ herror => Template.isLine_message_of_mem_errors hstrings herror
  have hfinished := ((hstarted.tell hsyntactic).events fun loc head hevent =>
    Template.isOnLine_of_enter_mem_events hstrings hevent).finish
  obtain ⟨diagnostic, hdiagnostic, rfl⟩ :=
    List.mem_map.mp ((Diagnostic.tellAll_perm _ diagnostics).subset he)
  obtain ⟨finding, hfinding, rfl⟩ :=
    List.mem_map.mp ((Finding.sublist_of_settle_eq_ok hsettle).subset hdiagnostic)
  exact ⟨hfinished.findings finding hfinding, hfinished.id⟩

end Compilation

namespace CommandLine

/-! ### Lines that are printed -/

theorem unlines_cons (line : String) (lines : List String) :
    (unlines (line :: lines)).toList = line.toList ++ '\n' :: (unlines lines).toList := by
  rw [unlines, List.map_cons, String.join_cons, String.toList_append, String.toList_append,
    List.append_assoc]
  rfl

/-- What is printed as lines has these lines just if none of them has a newline. -/
theorem hasLines_unlines_iff {lines : List String} :
    HasLines (unlines lines) lines ↔ ∀ line ∈ lines, IsLine line := by
  constructor
  · intro hlines line hmem
    refine Text.isLine_of_mem_splitOn (s := (unlines lines).toList) ?_
    rw [hlines]
    exact List.mem_append_left _ (List.mem_map_of_mem hmem)
  · intro hlines
    induction lines with
    | nil => rfl
    | cons line lines ih =>
      obtain ⟨hline, hrest⟩ := List.forall_mem_cons.mp hlines
      rw [HasLines, unlines_cons, List.splitOn_append_cons_self_of_not_mem hline, ih hrest]
      rfl

theorem isLine_errorLine_iff {long : Bool} {file : String} (hfile : IsLine file)
    {e : TemplateError} :
    IsLine (errorLine long file e) ↔ IsLine e.message ∧ (long = true → IsLine e.templateId) := by
  cases long with
  | false =>
    have hbefore : IsLine (file ++ ":") := hfile.append (Text.isLine_ofList (by decide))
    change IsLine (file ++ ":" ++ e.compact) ↔ _
    simp [hbefore, TemplateError.isLine_compact_iff]
  | true =>
    change IsLine e.verbose ↔ _
    simp [TemplateError.isLine_verbose_iff]

/-! ### Running the command -/

/-- The calendar and the date of a template that names none. -/
def CompileArguments.defaults (a : CompileArguments) (today : CivilDate) (s : Settings) :
    Defaults where
  calendar := (a.calendar.or s.calendar).getD .gregorian
  date := (a.referenceDate.or s.referenceDate).getD today

/-- Whether errors are printed with the identifier of the template. -/
def CompileArguments.showsLong (a : CompileArguments) (s : Settings) : Bool :=
  a.longErrors || s.longErrors.getD false

/-- The files that the command reads hold settings, a template, and entries if it uses an index. -/
structure Holds (files : String → Id (Except FileError String)) (config : Option String)
    (a : CompileArguments) (settings : Settings) (text : String) (entries : Option EntrySet) :
    Prop where
  settings_eq : (loadSettings files config).run = .ok settings
  text_eq : files a.file = .ok text
  entries_eq : ((a.index.or settings.index).mapM (loadEntries files)).run = .ok entries

theorem run_bind_eq_ok_iff {ε α β : Type} {x : ExceptT ε Id α} {f : α → ExceptT ε Id β} {b : β} :
    (x >>= f).run = .ok b ↔ ∃ a, x.run = .ok a ∧ (f a).run = .ok b := by
  constructor
  · intro h
    change ExceptT.bindCont f x = .ok b at h
    cases x with
    | error cause => cases h
    | ok a => exact ⟨a, rfl, h⟩
  · rintro ⟨a, ha, hb⟩
    change x = .ok a at ha
    rw [ha]
    exact hb

/-- Whatever index the entries make, it answers all that it is asked. -/
theorem exists_compileText_eq (entries : Option EntrySet) (name : String) (defaults : Defaults)
    (text : String) :
    ∃ (σ : Type) (index : Index σ) (state : σ), index.NeverFails state ∧
      compileText entries name defaults text =
        (Compilation.ofText index name defaults text state).1 := by
  cases entries with
  | none => exact ⟨Unit, Index.full, (), Index.neverFails_full (), rfl⟩
  | some set => exact ⟨EntrySet, EntrySet.index, set, EntrySet.neverFails_index set, rfl⟩

theorem exists_compileText_eq_ok_iff {entries : Option EntrySet} {name text : String}
    {defaults : Defaults} :
    (∃ c, compileText entries name defaults text = .ok c) ↔
      IsLiturgicalYear (defaults.calendar.label defaults.date).year := by
  obtain ⟨σ, index, state, hindex, hcompile⟩ := exists_compileText_eq entries name defaults text
  rw [hcompile, ← LiturgicalDay.exists_ofDate_eq_ok_iff]
  constructor
  · rintro ⟨c, hc⟩
    obtain ⟨d, -, -, hstart, -⟩ := Compilation.exists_settle_of_build_eq_ok hc
    obtain ⟨day, hday, -⟩ := Draft.eq_of_start_eq_ok hstart
    exact ⟨day, hday⟩
  · rintro ⟨day, hday⟩
    have hstart : ∃ d, Draft.start name defaults.calendar defaults.date = .ok d := by
      rw [Draft.start, hday]
      exact ⟨_, rfl⟩
    obtain ⟨d, hstart⟩ := hstart
    obtain ⟨c, hc, -⟩ := Compilation.exists_build_eq_ok _ hstart hindex
    exact ⟨c, hc⟩

variable {files : String → Id (Except FileError String)} {today : CivilDate}
  {settings : Settings} {a : CompileArguments}

theorem runCompile_eq_ok_iff {outcome : Outcome} :
    (runCompile files today settings a).run = .ok outcome ↔
      ∃ text entries c, files a.file = .ok text ∧
        ((a.index.or settings.index).mapM (loadEntries files)).run = .ok entries ∧
        compileText entries a.file (a.defaults today settings) text = .ok c ∧
        compilationOutcome (a.showsLong settings) a.json a.file c = outcome := by
  unfold runCompile
  rw [run_bind_eq_ok_iff]
  constructor
  · rintro ⟨answer, hanswer, h⟩
    have hfile : files a.file = answer := Except.ok.inj hanswer
    cases answer with
    | error cause => cases h
    | ok text =>
      dsimp only at h
      rw [pure_bind, run_bind_eq_ok_iff] at h
      obtain ⟨entries, hentries, h⟩ := h
      cases hc : compileText entries a.file (a.defaults today settings) text with
      | error cause =>
        unfold CompileArguments.defaults at hc
        rw [hc] at h
        cases h
      | ok c =>
        unfold CompileArguments.defaults at hc
        rw [hc] at h
        exact ⟨text, entries, c, hfile, hentries, hc, Except.ok.inj h⟩
  · rintro ⟨text, entries, c, htext, hentries, hc, rfl⟩
    refine ⟨.ok text, congrArg Except.ok htext, ?_⟩
    dsimp only
    rw [pure_bind, run_bind_eq_ok_iff]
    refine ⟨entries, hentries, ?_⟩
    unfold CompileArguments.defaults at hc
    rw [hc]
    rfl

theorem run_compile_eq_ok_iff {verbose : Nat} {config : Option String} {outcome : Outcome} :
    (run files today ⟨verbose, config, .compile a⟩).run = .ok outcome ↔
      ∃ settings text entries c, Holds files config a settings text entries ∧
        compileText entries a.file (a.defaults today settings) text = .ok c ∧
        compilationOutcome (a.showsLong settings) a.json a.file c = outcome := by
  unfold run
  rw [run_bind_eq_ok_iff]
  constructor
  · rintro ⟨settings, hsettings, h⟩
    obtain ⟨text, entries, c, htext, hentries, hc, houtcome⟩ := runCompile_eq_ok_iff.mp h
    exact ⟨settings, text, entries, c, ⟨hsettings, htext, hentries⟩, hc, houtcome⟩
  · rintro ⟨settings, text, entries, c, ⟨hsettings, htext, hentries⟩, hc, houtcome⟩
    have hcompile := runCompile_eq_ok_iff.mpr ⟨text, entries, c, htext, hentries, hc, houtcome⟩
    exact ⟨settings, hsettings, hcompile⟩

/-- Compiling comes to an outcome just if the files that it reads hold what they should and the date
of a template that names none is of a liturgical year. It prints the errors that it counts, each
with a newline after it. Each stands on a line of its own just if no message has a newline, and
neither has the identifier of the template where that is shown. If no string of the template has
one, they have none. -/
theorem hasLines_run_compile (files : String → Id (Except FileError String)) (today : CivilDate)
    (verbose : Nat) (config : Option String) {a : CompileArguments} (hjson : a.json = false)
    (hfile : IsLine a.file) :
    ((∃ outcome, (run files today ⟨verbose, config, .compile a⟩).run = .ok outcome) ↔
      ∃ settings text entries, Holds files config a settings text entries ∧
        let defaults := a.defaults today settings
        IsLiturgicalYear (defaults.calendar.label defaults.date).year) ∧
    ∀ outcome, (run files today ⟨verbose, config, .compile a⟩).run = .ok outcome →
      ∃ settings text entries c, Holds files config a settings text entries ∧
        compileText entries a.file (a.defaults today settings) text = .ok c ∧
        let lines := c.errors.map fun e =>
          if a.showsLong settings then e.verbose else a.file ++ ":" ++ e.compact
        outcome.errors = lines.length ∧
        outcome.output = unlines lines ∧
        (HasLines outcome.output lines ↔ ∀ e ∈ c.errors,
          IsLine e.message ∧ (a.showsLong settings = true → IsLine e.templateId)) ∧
        ((∀ value ∈ (Scan.ofText text).strings, IsLine value) →
          HasLines outcome.output lines) := by
  constructor
  · constructor
    · rintro ⟨outcome, hrun⟩
      obtain ⟨settings, text, entries, c, hholds, hc, -⟩ := run_compile_eq_ok_iff.mp hrun
      exact ⟨settings, text, entries, hholds, exists_compileText_eq_ok_iff.mp ⟨c, hc⟩⟩
    · rintro ⟨settings, text, entries, hholds, hyear⟩
      obtain ⟨c, hc⟩ := exists_compileText_eq_ok_iff.mpr hyear
      exact ⟨_, run_compile_eq_ok_iff.mpr ⟨settings, text, entries, c, hholds, hc, rfl⟩⟩
  · intro outcome hrun
    obtain ⟨settings, text, entries, c, hholds, hc, rfl⟩ := run_compile_eq_ok_iff.mp hrun
    let long := a.showsLong settings
    have hprinted : (compilationOutcome long a.json a.file c).output =
        unlines (c.errors.map (errorLine long a.file)) := by
      simp [compilationOutcome, hjson]
    have hlines : HasLines (unlines (c.errors.map (errorLine long a.file)))
          (c.errors.map (errorLine long a.file)) ↔
        ∀ e ∈ c.errors, IsLine e.message ∧ (long = true → IsLine e.templateId) := by
      simp only [hasLines_unlines_iff, List.forall_mem_map, isLine_errorLine_iff hfile]
    refine ⟨settings, text, entries, c, hholds, hc, (List.length_map _).symm, hprinted, ?_, ?_⟩
    · rw [hprinted]
      exact hlines
    · intro hstrings
      obtain ⟨σ, index, state, -, hcompile⟩ :=
        exists_compileText_eq entries a.file (a.defaults today settings) text
      rw [hprinted]
      refine hlines.mpr fun e he => ?_
      obtain ⟨hmessage, hid⟩ :=
        Compilation.isLine_of_mem_errors hfile hstrings (hcompile.symm.trans hc) he
      exact ⟨hmessage, fun _ => hid⟩

/-- There is one file, and it holds a template. -/
def onlyTemplate (text file : String) : Id (Except FileError String) :=
  if file = "t.lml" then .ok text else .error .missing

theorem hasLines_run_compile_unknownStatus :
    IsLine "t.lml" ∧ ∃ outcome lines,
      (run (onlyTemplate "Status = \"a\"") ⟨737425⟩
        ⟨0, none, .compile ⟨"t.lml", none, false, false, none, none⟩⟩).run = .ok outcome ∧
      outcome.errors = lines.length ∧ HasLines outcome.output lines := by
  have hfile : IsLine "t.lml" := Text.isLine_ofList (by decide)
  have hstrings : (Scan.ofText "Status = \"a\"").strings = ["a"] := by decide +kernel
  obtain ⟨hexists, hprints⟩ := hasLines_run_compile (onlyTemplate "Status = \"a\"") ⟨737425⟩ 0 none
    (a := ⟨"t.lml", none, false, false, none, none⟩) rfl hfile
  obtain ⟨outcome, hrun⟩ :=
    hexists.mpr ⟨.empty, "Status = \"a\"", none, ⟨rfl, rfl, rfl⟩, by decide⟩
  obtain ⟨settings, text, entries, c, hholds, -, hcount, -, -, hlines⟩ := hprints outcome hrun
  obtain rfl : "Status = \"a\"" = text := Except.ok.inj hholds.text_eq
  refine ⟨hfile, outcome, _, hrun, hcount, hlines ?_⟩
  rw [hstrings]
  intro value hvalue
  rw [List.mem_singleton.mp hvalue]
  exact Text.isLine_ofList (by decide)

/-- The status of the template is a string with a newline, which the one error quotes. -/
theorem not_hasLines_run_compile_twoLineStatus :
    ∃ outcome,
      (run (onlyTemplate "Status = \"a\\nb\"") ⟨737425⟩
        ⟨0, none, .compile ⟨"t.lml", none, false, false, none, none⟩⟩).run = .ok outcome ∧
      outcome.errors = 1 ∧
      ¬∃ lines : List String, lines.length = outcome.errors ∧ HasLines outcome.output lines := by
  have hshown : (run (onlyTemplate "Status = \"a\\nb\"") ⟨737425⟩
      ⟨0, none, .compile ⟨"t.lml", none, false, false, none, none⟩⟩).run.toOption =
      some ⟨1, "t.lml:1:1: invalid template Status \"a\nb\", expected one of " ++
        "na, draft, review, final\n"⟩ := by
    decide +kernel
  cases hrun : (run (onlyTemplate "Status = \"a\\nb\"") ⟨737425⟩
      ⟨0, none, .compile ⟨"t.lml", none, false, false, none, none⟩⟩).run with
  | error failure =>
    rw [hrun] at hshown
    cases hshown
  | ok outcome =>
    rw [hrun] at hshown
    obtain rfl := Option.some.inj hshown
    refine ⟨_, rfl, rfl, ?_⟩
    rintro ⟨lines, hcount, hlines⟩
    have hlength := congrArg List.length hlines
    rw [List.length_append, List.length_map, hcount] at hlength
    revert hlength
    decide +kernel

end CommandLine

end Typikon
