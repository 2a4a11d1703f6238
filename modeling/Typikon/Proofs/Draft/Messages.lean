import Typikon.Proofs.Calendar.Failures
import Typikon.Proofs.Document.Acceptance
import Typikon.Proofs.Draft.DateState
import Typikon.Proofs.Draft.Properties
import Typikon.Proofs.Template.Quoting

/-!
What drafts report. The messages of a draft quote the nodes that it enters, so where these stand on
one line, all that is found wrong with them is told on one line, and so is the identifier of the
document.
-/

namespace Typikon

open Text (IsLine)

/-! ### Keywords and dates -/

/-- A vocabulary whose subject and words stand on one line. -/
structure Text.Vocabulary.IsOnLine {α : Type} (v : Vocabulary α) : Prop where
  subject : IsLine v.subject
  word : ∀ value ∈ v.values, IsLine (v.word value)

theorem Text.Vocabulary.IsOnLine.isLine_message {α : Type} {v : Vocabulary α} (h : v.IsOnLine)
    {text : String} (htext : IsLine text) {cause : UnknownKeyword}
    (hread : v.read text = .error cause) : IsLine cause.message := by
  unfold read at hread
  split at hread
  · cases hread
  · cases hread
    exact ((isLine_around (by decide) h.subject (by decide)).append htext).append
      (isLine_ofList (by decide)) |>.append (isLine_expected h.word)

theorem TemplateType.isOnLine_vocabulary : TemplateType.vocabulary.IsOnLine where
  subject := Text.isLine_ofList (by decide)
  word type _ := by cases type <;> exact Text.isLine_ofList (by decide)

theorem Status.isOnLine_vocabulary : Status.vocabulary.IsOnLine where
  subject := Text.isLine_ofList (by decide)
  word status _ := by cases status <;> exact Text.isLine_ofList (by decide)

theorem Slot.isOnLine_vocabulary : Slot.vocabulary.IsOnLine where
  subject := Text.isLine_ofList (by decide)
  word slot _ := by cases slot <;> exact Text.isLine_ofList (by decide)

theorem Reckoning.failsOnLine_read {text : String} (h : IsLine text) :
    FailsOnLine (Reckoning.read text) := by
  unfold Reckoning.read
  split
  · exact .ok _
  · rintro _ ⟨⟩
    exact CalendarError.isLine_message fun _ heq => by cases heq; exact h

/-! ### References -/

theorem Entry.isLine_divide {path : String} (h : IsLine path) :
    IsLine (divide path).topic ∧ IsLine (divide path).key := by
  have hkey := (List.drop_sublist 1 (path.toList.dropWhile (· ≠ '/'))).trans
    (List.dropWhile_sublist _)
  exact ⟨Text.isLine_ofList fun hmem => h ((List.takeWhile_sublist _).subset hmem),
    Text.isLine_ofList fun hmem => h (hkey.subset hmem)⟩

theorem Entry.isLine_message_of_ofPath {path : String} {cause : PathError} (h : IsLine path)
    (hread : ofPath path = .error cause) : IsLine cause.message := by
  unfold ofPath at hread
  split at hread <;> cases hread
  · exact Text.isLine_around (by decide) h (by decide)
  · exact Text.isLine_around (by decide) h (by decide)

theorem LiturgicalDay.isLine_topic (d : LiturgicalDay) {topic : String} (h : IsLine topic)
    (mode weekday : Option Nat) : IsLine (d.topic topic mode weekday) := by
  unfold LiturgicalDay.topic
  repeat' split
  · exact (Text.isLine_around (by decide) (Text.isLine_repr_nat _) (by decide)).append
      (Text.isLine_repr_nat _)
  · exact (Text.isLine_around (by decide) (Text.isLine_padded 2 _) (by decide)).append
      (Text.isLine_padded 2 _)
  · exact (Text.isLine_ofList (by decide)).append (Text.isLine_padded 2 _)
  · exact (Text.isLine_ofList (by decide)).append (Text.isLine_repr_int _)
  · exact h

theorem Entry.isLine_path {e : Entry} (htopic : IsLine e.topic) (hkey : IsLine e.key) :
    IsLine e.path := by
  exact (htopic.append (Text.isLine_ofList (by decide))).append hkey

theorem Content.isLine_path_of_wanted? {content : Content} (h : IsLine content.raw)
    {day : LiturgicalDay} {entry : Entry} (hwanted : content.wanted? day = some entry) :
    IsLine entry.path := by
  cases content with
  | literal text => cases hwanted
  | absolute path | media path =>
    obtain ⟨-, hentry⟩ := Option.ite_none_right_eq_some.1 hwanted
    obtain rfl := Option.some.inj hentry
    obtain ⟨htopic, hkey⟩ := Entry.isLine_divide h
    exact Entry.isLine_path htopic hkey
  | relative path overrides =>
    obtain ⟨-, hentry⟩ := Option.ite_none_right_eq_some.1 hwanted
    obtain rfl := Option.some.inj hentry
    obtain ⟨htopic, hkey⟩ := Entry.isLine_divide h
    exact Entry.isLine_path (day.isLine_topic htopic _ _) hkey

namespace Resolution

theorem isLine_message_of_mem_absolute {path : String} (h : IsLine path)
    {problem : ReferenceProblem} (hproblem : problem ∈ (absolute path).problems) :
    IsLine problem.message := by
  unfold absolute at hproblem
  split at hproblem
  · cases hproblem
  next cause hread =>
    rw [List.mem_singleton.mp hproblem]
    exact Entry.isLine_message_of_ofPath h hread

theorem isLine_message_of_mem_beyondLimit {mode day : Option Int} {problem : ReferenceProblem}
    (h : problem ∈ beyondLimit 8 .modeOutOfRange mode ++ beyondLimit 7 .dayOutOfRange day) :
    IsLine problem.message := by
  rcases List.mem_append.mp h with hmode | hday
  · obtain ⟨n, -, -, rfl⟩ := mem_beyondLimit.mp hmode
    exact Text.isLine_around (by decide) (Text.isLine_repr_int n) (by decide)
  · obtain ⟨n, -, -, rfl⟩ := mem_beyondLimit.mp hday
    exact Text.isLine_around (by decide) (Text.isLine_repr_int n) (by decide)

theorem isLine_message_of_mem_relative {path : String} (h : IsLine path) (mode day : Option Int)
    (d : LiturgicalDay) {problem : ReferenceProblem}
    (hproblem : problem ∈ (relative path mode day d).problems) : IsLine problem.message := by
  cases hread : Entry.ofPath path with
  | error cause =>
    rw [relative_of_error hread] at hproblem
    rw [List.mem_singleton.mp hproblem]
    exact Entry.isLine_message_of_ofPath h hread
  | ok entry =>
    by_cases hallowed : (mode.isSome ∨ day.isSome) → IsOctoechosTopic entry.topic
    · rw [relative_of_ok hread hallowed] at hproblem
      exact isLine_message_of_mem_beyondLimit hproblem
    · obtain ⟨hgiven, houtside⟩ := Classical.not_imp.1 hallowed
      rw [relative_of_outsideOctoechos hread hgiven houtside] at hproblem
      rcases List.mem_append.mp hproblem with hbeyond | hrefused
      · exact isLine_message_of_mem_beyondLimit hbeyond
      · rw [List.mem_singleton.mp hrefused]
        exact (Text.isLine_ofList (by decide)).append (Text.isLine_ofList (by decide))

theorem isLine_message_of_mem_ofContent {content : Content} (h : IsLine content.raw)
    (day : LiturgicalDay) {problem : ReferenceProblem}
    (hproblem : problem ∈ (ofContent day content).problems) : IsLine problem.message := by
  cases content with
  | literal text =>
    obtain ⟨-, rfl⟩ : text = "" ∧ problem = .emptyLiteral := by
      simpa [ofContent, literal, ite_eq_iff] using hproblem
    exact Text.isLine_ofList (by decide)
  | absolute path | media path => exact isLine_message_of_mem_absolute h hproblem
  | relative path overrides => exact isLine_message_of_mem_relative h _ _ day hproblem

end Resolution

/-! ### Problems -/

namespace Problem

/-- What the message of a problem quotes. -/
def quoted : Problem → List String
  | .idWithoutSlash text | .unknownProperty text | .slotOutsideBlock text | .unknownDirective text
  | .directiveOutsideSlot text | .spanOutsideParagraph text | .leafOutsideParagraph text => [text]
  | .textExpected name value | .numberExpected name value => [name, value.text]
  | .keyword cause => [cause.message]
  | .date cause => [cause.message]
  | .reference cause => [cause.message]
  | _ => []

theorem isLine_words : IsLine Property.words := by
  refine Text.isLine_intercalate (Text.isLine_ofList (by decide)) ?_
  rw [List.forall_mem_map]
  rintro (property | property) - <;> cases property <;> exact Text.isLine_ofList (by decide)

theorem isLine_message {problem : Problem} (h : ∀ text ∈ problem.quoted, IsLine text) :
    IsLine problem.message := by
  cases problem with
  | keyword cause | date cause | reference cause => exact h cause.message List.mem_cons_self
  | unknownProperty name =>
    exact (Text.isLine_around (by decide) (h name List.mem_cons_self) (by decide)).append
      isLine_words
  | idWithoutSlash text | slotOutsideBlock text | unknownDirective text
  | directiveOutsideSlot text | spanOutsideParagraph text | leafOutsideParagraph text =>
    exact Text.isLine_around (by decide) (h text List.mem_cons_self) (by decide)
  | textExpected name value | numberExpected name value =>
    have hname := h name List.mem_cons_self
    have hvalue := h value.text (List.mem_cons_of_mem _ List.mem_cons_self)
    exact ((Text.isLine_around (by decide) hname (by decide)).append hvalue).append
      (Text.isLine_ofList (by decide))
  | monthOutOfRange n | dayOutOfRange n | yearOutOfRange n | pageNumberOutOfRange n
  | libraryOutOfRange n =>
    exact Text.isLine_around (by decide) (Text.isLine_repr_int n) (by decide)
  | _ => exact Text.isLine_ofList (by decide)

theorem isLine_message_of_quoted_eq_nil {problem : Problem} (h : problem.quoted = []) :
    IsLine problem.message := by
  refine isLine_message fun text hmem => ?_
  rw [h] at hmem
  cases hmem

end Problem

/-! ### Edits -/

namespace Edit

/-- What an edit has a draft tell stands on one line. -/
def IsOnLine : Edit → Prop
  | .find finding => IsLine finding.diagnostic.message
  | .set _ document => IsLine document.id
  | _ => True

theorem isOnLine_fault (loc : Location) {problem : Problem}
    (h : ∀ text ∈ problem.quoted, IsLine text) : (fault loc problem).IsOnLine :=
  Problem.isLine_message h

end Edit

/-! ### Drafts -/

namespace Node.Head.IsOnLine

theorem isLine_name {name : String} {value : Value}
    (h : (Head.atom (.property name value)).IsOnLine) : IsLine name :=
  Token.Kind.isLine_of_describe (h (.word name) List.mem_cons_self)

theorem isLine_string {name text : String}
    (h : (Head.atom (.property name (.string text))).IsOnLine) : IsLine text := by
  refine Token.Kind.isLine_of_describe (h (.string text) ?_)
  simp [kinds, Atom.kinds, Value.kind]

theorem isLine_raw {content : Content} (h : (Head.atom (.content content)).IsOnLine) :
    IsLine content.raw := by
  refine Token.Kind.isLine_of_describe (h (.string content.raw) ?_)
  simp [kinds, Atom.kinds, Content.kinds]

end Node.Head.IsOnLine

namespace Draft

variable {d next : Draft} {loc : Location} {problem : Problem}

theorem isLine_message_of_setDates {dates : DateProperties}
    (h : d.setDates dates = .error problem) : IsLine problem.message := by
  unfold setDates at h
  split at h
  next cause hfail =>
    cases h
    exact dates.failsOnLine_liturgicalDay d.reference cause hfail
  · cases h

theorem isLine_message_of_setText {text : String} {property : TextProperty} (htext : IsLine text)
    (h : d.setText text property = .error problem) : IsLine problem.message := by
  unfold setText setId at h
  cases property with
  | id =>
    dsimp only at h
    split at h
    · cases h
      exact Text.isLine_ofList (by decide)
    · split at h
      · cases h
      · cases h
        exact Text.isLine_around (by decide) htext (by decide)
  | type =>
    dsimp only at h
    split at h
    · cases h
    next cause hread =>
      cases h
      exact TemplateType.isOnLine_vocabulary.isLine_message htext hread
  | status =>
    dsimp only at h
    split at h
    · cases h
    next cause hread =>
      cases h
      exact Status.isOnLine_vocabulary.isLine_message htext hread
  | calendar =>
    dsimp only at h
    split at h
    · exact isLine_message_of_setDates h
    next cause hread =>
      cases h
      exact Reckoning.failsOnLine_read htext cause hread
  | htmlCss | pdfCss | title => cases h

theorem isLine_message_of_setNumber {n : Int} {property : NumberProperty}
    (h : d.setNumber n property = .error problem) : IsLine problem.message := by
  unfold setNumber at h
  cases property with
  | month | day =>
    dsimp only at h
    split at h
    · exact isLine_message_of_setDates h
    · cases h
      exact Problem.isLine_message_of_quoted_eq_nil rfl
  | year =>
    dsimp only at h
    split at h
    · exact isLine_message_of_setDates h
    · split at h
      · exact isLine_message_of_setDates h
      · cases h
        exact Problem.isLine_message_of_quoted_eq_nil rfl
  | pageNumber =>
    dsimp only at h
    split at h
    · cases h
    · cases h
      exact Problem.isLine_message_of_quoted_eq_nil rfl

/-- A property that is refused is refused on one line, if it stands on one. -/
theorem isLine_message_of_setProperty {name : String} {value : Value}
    (hhead : (Node.Head.atom (.property name value)).IsOnLine)
    (h : d.setProperty name value = .error problem) : IsLine problem.message := by
  have hname := hhead.isLine_name
  unfold setProperty at h
  split at h
  · cases h
    exact Problem.isLine_message fun text hmem => List.mem_singleton.mp hmem ▸ hname
  · exact isLine_message_of_setText hhead.isLine_string h
  next n _ =>
    cases h
    refine Problem.isLine_message ?_
    rw [Problem.quoted, List.forall_mem_cons]
    refine ⟨hname, fun text hmem => ?_⟩
    rw [List.mem_singleton.mp hmem]
    exact Text.isLine_repr_int n
  · exact isLine_message_of_setNumber h
  next text _ =>
    cases h
    have hvalue : IsLine (Value.string text).text :=
      Text.isLine_around (by decide) hhead.isLine_string (by decide)
    refine Problem.isLine_message ?_
    rw [Problem.quoted, List.forall_mem_cons]
    exact ⟨hname, fun text hmem => List.mem_singleton.mp hmem ▸ hvalue⟩

/-- Whatever a draft tells is told on one line. -/
structure TellsOnLines (d : Draft) : Prop where
  id : IsLine d.document.id
  findings : d.FindsOnly fun finding => IsLine finding.diagnostic.message

theorem isLine_message_of_library? {number : Option Int} (h : library? number = .error problem) :
    IsLine problem.message := by
  unfold library? at h
  split at h
  · cases h
    exact Text.isLine_ofList (by decide)
  next n =>
    split at h
    · cases h
    · cases h
      exact Text.isLine_around (by decide) (Text.isLine_repr_int n) (by decide)

theorem isLine_message_of_mem_leafFindings {content : Content}
    (hhead : (Node.Head.atom (.content content)).IsOnLine) {finding : Finding}
    (h : finding ∈ d.leafFindings loc content) : IsLine finding.diagnostic.message := by
  have hraw := hhead.isLine_raw
  obtain ⟨_, problem, hproblem, rfl⟩ | ⟨entry, hentry, rfl⟩ := d.mem_leafFindings loc h
  · exact Resolution.isLine_message_of_mem_ofContent hraw _ hproblem
  · rw [Resolution.entry?_ofContent] at hentry
    exact Text.isLine_around (by decide) (Content.isLine_path_of_wanted? hraw hentry) (by decide)

theorem isOnLine_placeEdits {content : Content}
    (hhead : (Node.Head.atom (.content content)).IsOnLine) (reference : Reference) :
    ∀ e ∈ d.placeEdits loc content reference, e.IsOnLine := by
  have hraw : ∀ text ∈ [content.raw], IsLine text := List.forall_mem_singleton.mpr hhead.isLine_raw
  unfold placeEdits
  (repeat' split) <;> rw [List.forall_mem_singleton]
  case isFalse.isFalse.isTrue => exact Edit.isOnLine_fault loc hraw
  all_goals first | exact trivial | exact Edit.isOnLine_fault loc (List.forall_mem_nil _)

/-- What is found wrong at a node is told on one line, if the node stands on one. -/
theorem isOnLine_enterEdits (hid : IsLine d.document.id) {head : Node.Head}
    (hhead : head.IsOnLine) : ∀ e ∈ d.enterEdits loc head, e.IsOnLine := by
  match head with
  | .atom (.property name value) =>
    rw [enterEdits]
    cases hset : d.setProperty name value with
    | error problem =>
      exact List.forall_mem_singleton.mpr (isLine_message_of_setProperty hhead hset)
    | ok next =>
      obtain ⟨property, -, dates, document, hsets, rfl⟩ := setProperty_eq_ok_iff.mp hset
      refine List.forall_mem_singleton.mpr ?_
      cases hsets with
      | id hslash => exact hhead.isLine_string
      | _ => exact hid
  | .atom (.content content) =>
    rw [enterEdits, List.forall_mem_append, List.forall_mem_map]
    refine ⟨fun finding hfinding => ?_, isOnLine_placeEdits hhead _⟩
    exact isLine_message_of_mem_leafFindings hhead hfinding
  | .atom (.directive name) =>
    have hname := Token.Kind.isLine_of_describe (hhead (.directive name) List.mem_cons_self)
    rw [enterEdits]
    (repeat' split) <;> rw [List.forall_mem_singleton]
    case h_2.isFalse => trivial
    all_goals exact Edit.isOnLine_fault loc (List.forall_mem_singleton.mpr hname)
  | .group .template => exact List.forall_mem_nil _
  | .group (.pageBlock edge parity) =>
    rw [enterEdits, List.forall_mem_append, Edit.forall_mem_faultIf, List.forall_mem_cons,
      List.forall_mem_singleton]
    exact ⟨fun _ => Edit.isOnLine_fault loc (List.forall_mem_nil _), trivial, trivial⟩
  | .group (.position slot) =>
    have hslot := Token.Kind.isLine_of_describe (hhead (.word slot) List.mem_cons_self)
    rw [enterEdits]
    split
    · rw [List.forall_mem_cons, List.forall_mem_singleton]
      exact ⟨Edit.isOnLine_fault loc (List.forall_mem_singleton.mpr hslot), trivial⟩
    · cases hread : Slot.vocabulary.read slot with
      | ok slot => exact List.forall_mem_singleton.mpr trivial
      | error cause =>
        rw [List.forall_mem_cons, List.forall_mem_singleton]
        exact ⟨Slot.isOnLine_vocabulary.isLine_message hslot hread, trivial⟩
  | .group (.lookup number) =>
    rw [enterEdits, List.forall_mem_append, Edit.forall_mem_faultIf]
    refine ⟨fun _ => Edit.isOnLine_fault loc (List.forall_mem_nil _), ?_⟩
    cases hlibrary : library? number with
    | ok library => exact List.forall_mem_singleton.mpr trivial
    | error problem =>
      rw [List.forall_mem_cons, List.forall_mem_singleton]
      exact ⟨isLine_message_of_library? hlibrary, trivial⟩
  | .group (.paragraph style version) =>
    rw [enterEdits, List.forall_mem_append, Edit.forall_mem_doIf, List.forall_mem_cons,
      List.forall_mem_singleton, List.forall_mem_singleton]
    exact ⟨fun _ => ⟨Edit.isOnLine_fault loc (List.forall_mem_nil _), trivial⟩, trivial⟩
  | .group (.span style) =>
    have hstyle := Token.Kind.isLine_of_describe (hhead (.word style) List.mem_cons_self)
    rw [enterEdits, List.forall_mem_append, Edit.forall_mem_faultIf, List.forall_mem_singleton]
    exact ⟨fun _ => Edit.isOnLine_fault loc (List.forall_mem_singleton.mpr hstyle), trivial⟩

theorem isOnLine_exitEdits (head : Node.Head) : ∀ e ∈ d.exitEdits loc head, e.IsOnLine := by
  have hfault {problem : Problem} (h : problem.quoted = []) : (Edit.fault loc problem).IsOnLine :=
    Problem.isLine_message_of_quoted_eq_nil h
  unfold exitEdits Edit.faultIf Edit.doIf
  (repeat' split) <;> simp [Edit.IsOnLine] <;> exact hfault rfl

theorem isOnLine_endEdits : ∀ e ∈ d.endEdits, e.IsOnLine := by
  have hfault (loc : Location) {problem : Problem} (h : problem.quoted = []) :
      (Edit.fault loc problem).IsOnLine := Problem.isLine_message_of_quoted_eq_nil h
  have hclosing : ∀ e ∈ d.closingEdits, e.IsOnLine := by
    simp only [closingEdits, List.forall_mem_append, Edit.forall_mem_faultIf, Edit.forall_mem_doIf,
      List.forall_mem_cons]
    have hnil := List.forall_mem_nil Edit.IsOnLine
    exact ⟨⟨⟨fun _ => hfault _ rfl, fun _ => hfault _ rfl⟩,
      fun _ => ⟨hfault _ rfl, trivial, hnil⟩⟩, fun _ => ⟨hfault _ rfl, trivial, hnil⟩⟩
  rw [endEdits, List.forall_mem_append, List.forall_mem_append, Edit.forall_mem_faultIf,
    List.forall_mem_singleton]
  exact ⟨⟨hclosing, fun _ => hfault _ rfl⟩, trivial⟩

namespace TellsOnLines

theorem start {name : String} {calendar : Reckoning} {reference : CivilDate} (hname : IsLine name)
    (hstart : Draft.start name calendar reference = .ok d) : d.TellsOnLines := by
  obtain ⟨day, -, rfl⟩ := eq_of_start_eq_ok hstart
  exact ⟨hname, fun finding hmem => absurd hmem List.not_mem_nil⟩

theorem tell (h : d.TellsOnLines) {diagnostics : List Diagnostic}
    (hdiagnostics : ∀ diagnostic ∈ diagnostics, IsLine diagnostic.message) :
    (d.tell diagnostics).TellsOnLines where
  id := h.id
  findings := by
    refine h.findings.addFindings ?_
    rw [List.forall_mem_map]
    exact hdiagnostics

theorem apply (h : d.TellsOnLines) {e : Edit} (he : e.IsOnLine) : (d.apply e).TellsOnLines := by
  cases e with
  | find finding => exact ⟨h.id, h.findings.addFindings (List.forall_mem_singleton.mpr he)⟩
  | set dates document => exact ⟨he, h.findings⟩
  | _ => exact ⟨h.id, h.findings⟩

theorem applyAll (h : d.TellsOnLines) {edits : List Edit} (hedits : ∀ e ∈ edits, e.IsOnLine) :
    (d.applyAll edits).TellsOnLines :=
  applyAll_induction (fun _ _ hnext he => hnext.apply he) hedits h

theorem finish (h : d.TellsOnLines) : d.finish.TellsOnLines := by
  rw [finish_eq]
  exact h.applyAll isOnLine_endEdits

theorem events (h : d.TellsOnLines) {events : List Event}
    (hevents : ∀ loc head, .enter loc head ∈ events → head.IsOnLine) :
    (d.events events).TellsOnLines := by
  induction events generalizing d with
  | nil => exact h
  | cons event events ih =>
    refine ih ?_ fun loc head hmem => hevents loc head (List.mem_cons_of_mem event hmem)
    rw [event_eq]
    cases event with
    | enter loc head =>
      have hhead := hevents loc head List.mem_cons_self
      have hentered : ∀ e ∈ enterEdits { d with last := loc } loc head, e.IsOnLine :=
        isOnLine_enterEdits (d := { d with last := loc }) h.id hhead
      exact h.applyAll (List.forall_mem_cons.mpr ⟨trivial, hentered⟩)
    | exit loc head => exact h.applyAll (isOnLine_exitEdits head)

end TellsOnLines

end Draft

end Typikon
