import Typikon.Proofs.Draft.Edits

/-!
The findings of a draft. They are written down and never looked at: what a draft does is the same
whatever was found before, and what it finds comes after that. The questions of a draft can thus be
settled at any time.
-/

namespace Typikon

namespace Draft

/-- A draft starts with nothing open and nothing found. -/
theorem eq_of_start_eq_ok {name : String} {calendar : Reckoning} {reference : CivilDate} {d : Draft}
    (h : start name calendar reference = .ok d) :
    ∃ day, LiturgicalDay.ofDate calendar reference = .ok day ∧
      d = ⟨.empty name day, reference, ⟨calendar, none, none, none⟩, none, [], none, .outside, none,
        .start, []⟩ := by
  unfold start at h
  cases hday : LiturgicalDay.ofDate calendar reference with
  | error cause =>
    rw [hday] at h
    cases h
  | ok day =>
    rw [hday] at h
    cases h
    exact ⟨day, rfl, rfl⟩

/-- The draft as it would be had other things been found before all that it has found. -/
def precededBy (d : Draft) (earlier : List Finding) : Draft :=
  { d with findings := earlier ++ d.findings }

variable (d : Draft) (earlier : List Finding) (loc : Location)

@[simp]
theorem document_precededBy : (d.precededBy earlier).document = d.document := rfl

@[simp]
theorem findings_precededBy : (d.precededBy earlier).findings = earlier ++ d.findings := rfl

@[simp]
theorem reference_precededBy : (d.precededBy earlier).reference = d.reference := rfl

@[simp]
theorem dates_precededBy : (d.precededBy earlier).dates = d.dates := rfl

theorem setDates_precededBy (dates : DateProperties) :
    (d.precededBy earlier).setDates dates =
      (d.setDates dates).map (·.precededBy earlier) := by
  unfold setDates
  rw [reference_precededBy]
  cases dates.liturgicalDay d.reference <;> rfl

theorem setId_precededBy (id : String) :
    (d.precededBy earlier).setId id = (d.setId id).map (·.precededBy earlier) := by
  unfold setId
  by_cases hempty : id = ""
  · simp [hempty, Except.map]
  · by_cases hslash : '/' ∈ id.toList
    · simp only [hempty, hslash, if_true, if_false]
      rfl
    · simp [hempty, hslash, Except.map]

theorem setText_precededBy (text : String) (property : TextProperty) :
    (d.precededBy earlier).setText text property =
      (d.setText text property).map (·.precededBy earlier) := by
  unfold setText
  cases property with
  | id => exact setId_precededBy d earlier text
  | type => cases TemplateType.vocabulary.read text <;> rfl
  | status => cases Status.vocabulary.read text <;> rfl
  | calendar =>
    cases Reckoning.read text with
    | ok calendar => exact setDates_precededBy d earlier _
    | error cause => rfl
  | htmlCss | pdfCss | title => rfl

theorem setNumber_precededBy (n : Int) (property : NumberProperty) :
    (d.precededBy earlier).setNumber n property =
      (d.setNumber n property).map (·.precededBy earlier) := by
  simp only [setNumber, dates_precededBy, setDates_precededBy]
  cases property <;> (repeat' split) <;> rfl

theorem setProperty_precededBy (name : String) (value : Value) :
    (d.precededBy earlier).setProperty name value =
      (d.setProperty name value).map (·.precededBy earlier) := by
  unfold setProperty
  split
  · rfl
  · exact setText_precededBy d earlier _ _
  · rfl
  · exact setNumber_precededBy d earlier _ _
  · rfl

theorem apply_precededBy (e : Edit) :
    (d.precededBy earlier).apply e = (d.apply e).precededBy earlier := by
  cases e with
  | find finding => simp [apply, precededBy]
  | _ => rfl

theorem applyAll_precededBy (edits : List Edit) :
    (d.precededBy earlier).applyAll edits = (d.applyAll edits).precededBy earlier := by
  induction edits generalizing d with
  | nil => rfl
  | cons e edits ih => rw [applyAll_cons, apply_precededBy, ih, applyAll_cons]

/-- The edits of an event are settled without a look at the findings. -/
theorem edits_precededBy (event : Event) : (d.precededBy earlier).edits event = d.edits event := by
  match event with
  | .enter loc (.atom (.property name value)) =>
    have hset := setProperty_precededBy { d with last := loc } earlier name value
    have hhere : { d.precededBy earlier with last := loc } =
        precededBy { d with last := loc } earlier := rfl
    rw [edits, edits, enterEdits, enterEdits, hhere, hset]
    cases setProperty { d with last := loc } name value <;> rfl
  | .enter _ (.atom (.directive _)) | .enter _ (.atom (.content _)) => rfl
  | .enter _ (.group .template) | .enter _ (.group (.pageBlock _ _)) => rfl
  | .enter _ (.group (.position _)) | .enter _ (.group (.lookup _)) => rfl
  | .enter _ (.group (.paragraph _ _)) | .enter _ (.group (.span _)) => rfl
  | .exit _ (.atom _) | .exit _ (.group .template) | .exit _ (.group (.pageBlock _ _)) => rfl
  | .exit _ (.group (.position _)) | .exit _ (.group (.lookup _)) => rfl
  | .exit _ (.group (.paragraph _ _)) | .exit _ (.group (.span _)) => rfl

/-- What an event does to a draft does not depend on what has been found before it. -/
theorem event_precededBy (event : Event) :
    (d.precededBy earlier).event event = (d.event event).precededBy earlier := by
  rw [event_eq, event_eq, edits_precededBy, applyAll_precededBy]

theorem finish_precededBy : (d.precededBy earlier).finish = d.finish.precededBy earlier := by
  have hedits : (d.precededBy earlier).endEdits = d.endEdits := rfl
  rw [finish_eq, finish_eq, hedits, applyAll_precededBy]

theorem events_precededBy (events : List Event) :
    (d.precededBy earlier).events events = (d.events events).precededBy earlier := by
  induction events generalizing d with
  | nil => rfl
  | cons event events ih =>
    calc
      (d.precededBy earlier).events (event :: events) =
          ((d.event event).precededBy earlier).events events :=
        congrArg (·.events events) (event_precededBy d earlier event)
      _ = (d.events (event :: events)).precededBy earlier := ih (d.event event)

/-! ### What is found -/

theorem findings_applyAll (edits : List Edit) :
    (d.applyAll edits).findings = d.findings ++ edits.flatMap Edit.found := by
  induction edits generalizing d with
  | nil => exact (List.append_nil _).symm
  | cons e edits ih =>
    rw [applyAll_cons, ih, List.flatMap_cons, ← List.append_assoc]
    cases e <;> simp [apply, Edit.found]

theorem findings_event (event : Event) :
    (d.event event).findings = d.findings ++ (d.edits event).flatMap Edit.found := by
  rw [event_eq, findings_applyAll]

theorem findings_finish : d.finish.findings = d.findings ++ d.endEdits.flatMap Edit.found := by
  rw [finish_eq, findings_applyAll]

theorem findings_prefix_finish : d.findings <+: d.finish.findings :=
  ⟨_, d.findings_finish.symm⟩

theorem findings_prefix_events (events : List Event) :
    d.findings <+: (d.events events).findings := by
  induction events generalizing d with
  | nil => exact List.prefix_refl _
  | cons event events ih =>
    have hfirst : d.findings <+: (d.event event).findings := ⟨_, (d.findings_event event).symm⟩
    exact hfirst.trans (ih (d.event event))

/-- What is found about a leaf itself is what is wrong with its reference, and a question. -/
theorem mem_leafFindings {content : Content} {finding : Finding}
    (h : finding ∈ d.leafFindings loc content) :
    (∃ loc, ∃ problem ∈ (Resolution.ofContent d.document.liturgicalDay content).problems,
      finding = .certain loc (.reference problem)) ∨
    ∃ entry ∈ Resolution.entry? (Resolution.ofContent d.document.liturgicalDay content),
      finding = .unlessFound loc entry := by
  rcases List.mem_append.mp h with hproblem | hentry
  · obtain ⟨problem, hmem, rfl⟩ := List.mem_map.mp hproblem
    exact .inl ⟨_, problem, hmem, rfl⟩
  · obtain ⟨entry, hsome, rfl⟩ := Option.map_eq_some_iff.mp (Option.mem_toList.mp hentry)
    exact .inr ⟨entry, hsome, rfl⟩

theorem found_placeEdits (content : Content) (reference : Reference) :
    ∀ e ∈ d.placeEdits loc content reference, ∀ finding ∈ e.found,
      ∃ problem, finding = .certain loc problem := by
  unfold placeEdits
  (repeat' split) <;> simp [Edit.found, Edit.fault]

/-- What is found where a node is entered is certain, or it is about a leaf itself. -/
theorem found_on_enter (head : Node.Head) :
    ∀ e ∈ d.edits (.enter loc head), ∀ finding ∈ e.found,
      (∃ problem, finding = .certain loc problem) ∨
        ∃ content, head = .atom (.content content) ∧ finding ∈ d.leafFindings loc content := by
  match head with
  | .atom (.content content) =>
    rw [edits, enterEdits, List.forall_mem_cons, List.forall_mem_append, List.forall_mem_map]
    refine ⟨List.forall_mem_nil _, fun finding hfinding other hother => ?_, fun e he => ?_⟩
    · rw [List.mem_singleton.mp hother]
      exact .inr ⟨content, rfl, hfinding⟩
    · exact fun finding hfinding => .inl (found_placeEdits _ loc content _ e he finding hfinding)
  | .atom (.property _ _) | .atom (.directive _) | .group .template | .group (.pageBlock _ _)
  | .group (.position _) | .group (.lookup _) | .group (.paragraph _ _) | .group (.span _) =>
    simp only [edits, enterEdits, Edit.faultIf, Edit.doIf]
    (repeat' split) <;> simp [Edit.found, Edit.fault]

theorem found_on_exit (head : Node.Head) :
    ∀ e ∈ d.edits (.exit loc head), ∀ finding ∈ e.found,
      ∃ problem, finding = .certain loc problem := by
  rw [edits]
  unfold exitEdits Edit.faultIf Edit.doIf
  (repeat' split) <;> simp [Edit.found, Edit.fault]

theorem found_at_end :
    ∀ e ∈ d.endEdits, ∀ finding ∈ e.found, ∃ loc problem, finding = .certain loc problem := by
  unfold endEdits closingEdits Edit.faultIf Edit.doIf
  (repeat' split) <;> simp [Edit.found, Edit.fault]

/-- All that a draft has found is of one kind. -/
def FindsOnly (p : Finding → Prop) (d : Draft) : Prop :=
  ∀ finding ∈ d.findings, p finding

theorem findsOnly_applyAll_iff {p : Finding → Prop} {d : Draft} {edits : List Edit} :
    (d.applyAll edits).FindsOnly p ↔
      d.FindsOnly p ∧ ∀ e ∈ edits, ∀ finding ∈ e.found, p finding := by
  rw [FindsOnly, findings_applyAll, List.forall_mem_append, List.forall_mem_flatMap, FindsOnly]

namespace FindsOnly

variable {p : Finding → Prop} {d : Draft}

theorem addFindings (h : d.FindsOnly p) {findings : List Finding}
    (hfindings : ∀ finding ∈ findings, p finding) : (d.addFindings findings).FindsOnly p :=
  List.forall_mem_append.mpr ⟨h, hfindings⟩

theorem finish (hcertain : ∀ loc problem, p (.certain loc problem)) (h : d.FindsOnly p) :
    d.finish.FindsOnly p := by
  rw [finish_eq, findsOnly_applyAll_iff]
  refine ⟨h, fun e he finding hfinding => ?_⟩
  obtain ⟨loc, problem, rfl⟩ := d.found_at_end e he finding hfinding
  exact hcertain loc problem

theorem events (hcertain : ∀ loc problem, p (.certain loc problem))
    (hquestion : ∀ loc entry, p (.unlessFound loc entry)) (h : d.FindsOnly p)
    (events : List Event) : (d.events events).FindsOnly p := by
  induction events generalizing d with
  | nil => exact h
  | cons event events ih =>
    refine ih ?_
    rw [event_eq, findsOnly_applyAll_iff]
    refine ⟨h, fun e he finding hfinding => ?_⟩
    cases event with
    | exit loc head =>
      obtain ⟨problem, rfl⟩ := d.found_on_exit loc head e he finding hfinding
      exact hcertain loc problem
    | enter loc head =>
      obtain ⟨problem, rfl⟩ | ⟨content, -, hleaf⟩ :=
        d.found_on_enter loc head e he finding hfinding
      · exact hcertain loc problem
      · obtain ⟨_, problem, -, rfl⟩ | ⟨entry, -, rfl⟩ := d.mem_leafFindings loc hleaf
        · exact hcertain _ _
        · exact hquestion loc entry

end FindsOnly

end Draft

end Typikon
