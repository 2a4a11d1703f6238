import Typikon.Proofs.Draft.PageBlocksOfTree
import Typikon.Proofs.Draft.References

/-!
The headers and footers of events in any order. A draft has one header or footer open at most. One
that is entered while another is open takes its place, and that one is lost, though not silently.
All others are kept, whether they are left, or left too late, or not at all.
-/

namespace Typikon

/-- A header or footer apart from what is in it. -/
structure PageForm where
  edge : PageEdge
  parity : Parity
deriving DecidableEq

namespace PageBlock

def form (b : PageBlock) : PageForm :=
  ⟨b.edge, b.parity⟩

theorem form_insert (b : PageBlock) (slot : Slot) (insertion : Insertion) :
    (b.insert slot insertion).form = b.form := by
  cases slot <;> rfl

end PageBlock

namespace PageLayout

/-- The forms of the headers or of the footers, in order. -/
def forms (l : PageLayout) : PageEdge → List PageForm
  | .header => l.headers.map PageBlock.form
  | .footer => l.footers.map PageBlock.form

theorem forms_add (l : PageLayout) (b : PageBlock) (edge : PageEdge) :
    (l.add b).forms edge = l.forms edge ++ [b.form].filter fun form => form.edge = edge := by
  obtain ⟨blockEdge, parity, left, center, right⟩ := b
  cases blockEdge <;> cases edge <;> simp [add, forms, PageBlock.form]

theorem forms_withDate (l : PageLayout) (today : CivilDate) :
    (l.withDate today).forms = l.forms := by
  funext edge
  cases edge <;> simp [withDate, forms, PageBlock.form, PageBlock.withDate, Function.comp_def]

end PageLayout

/-- What an event says of headers and footers: that one begins, or that the open one ends. -/
inductive PageMark where
  | opens (loc : Location) (form : PageForm)
  | closes
deriving DecidableEq

def Event.pageMark? : Event → Option PageMark
  | .enter loc (.group (.pageBlock edge parity)) => some (.opens loc ⟨edge, parity⟩)
  | .exit _ (.group (.pageBlock _ _)) => some .closes
  | _ => none

theorem Event.eq_enter_of_pageMark?_eq_opens {event : Event} {loc : Location} {form : PageForm}
    (h : event.pageMark? = some (.opens loc form)) :
    event = .enter loc (.group (.pageBlock form.edge form.parity)) := by
  unfold pageMark? at h
  split at h <;> cases h
  rfl

namespace PageMark

/-- Where marks begin with an opening, if they do. -/
def opensAt? : List PageMark → Option Location
  | .opens loc _ :: _ => some loc
  | _ => none

/-- All headers and footers that are opened. -/
def opened : List PageMark → List PageForm
  | [] => []
  | .opens _ form :: marks => form :: opened marks
  | .closes :: marks => opened marks

/-- The headers and footers that no other one is opened right after. -/
def kept : List PageMark → List PageForm
  | [] => []
  | .opens _ form :: marks => if opensAt? marks = none then form :: kept marks else kept marks
  | .closes :: marks => kept marks

/-- Where a header or footer is opened right after another one. -/
def overtakings : List PageMark → List Location
  | [] => []
  | .opens _ _ :: marks => (opensAt? marks).toList ++ overtakings marks
  | .closes :: marks => overtakings marks

theorem kept_sublist_opened (marks : List PageMark) : (kept marks).Sublist (opened marks) := by
  induction marks with
  | nil => exact .slnil
  | cons mark marks ih =>
    cases mark with
    | closes => exact ih
    | opens loc form =>
      rw [kept, opened]
      split
      · exact ih.cons_cons form
      · exact ih.cons form

/-- Each header or footer is kept, or overtaken by the next one. -/
theorem length_opened (marks : List PageMark) :
    (opened marks).length = (kept marks).length + (overtakings marks).length := by
  induction marks with
  | nil => rfl
  | cons mark marks ih =>
    cases mark with
    | closes => exact ih
    | opens loc form =>
      rw [kept, opened, overtakings, List.length_cons, List.length_append, ih]
      cases opensAt? marks with
      | none =>
        simp only [if_pos, Option.toList_none, List.length_nil, List.length_cons]
        omega
      | some other =>
        simp only [reduceCtorEq, if_false, Option.toList_some, List.length_singleton]
        omega

theorem length_filter_edges (forms : List PageForm) :
    forms.length = (forms.filter fun form => form.edge = .header).length +
      (forms.filter fun form => form.edge = .footer).length := by
  induction forms with
  | nil => rfl
  | cons form forms ih =>
    obtain ⟨edge, parity⟩ := form
    cases edge <;> simp [ih] <;> omega

/-- All headers and all footers are kept just if none is overtaken. -/
theorem filter_kept_eq_iff (marks : List PageMark) :
    (∀ edge, ((kept marks).filter fun form => form.edge = edge) =
        (opened marks).filter fun form => form.edge = edge) ↔
      overtakings marks = [] := by
  have hlength := length_opened marks
  constructor
  · intro h
    rw [length_filter_edges (kept marks), h, h, ← length_filter_edges] at hlength
    exact List.eq_nil_of_length_eq_zero (by omega)
  · intro h edge
    rw [h, List.length_nil, Nat.add_zero] at hlength
    rw [(kept_sublist_opened marks).eq_of_length hlength.symm]

end PageMark

/-- The forms of headers and footers: of those that are closed, on either edge, and of the open
one. -/
structure PageForms where
  closed : PageEdge → List PageForm
  open? : Option PageForm

namespace PageForms

def take (p : PageForms) : PageMark → PageForms
  | .opens _ form => { p with open? := some form }
  | .closes =>
    { closed := fun edge => p.closed edge ++ p.open?.toList.filter fun form => form.edge = edge
      open? := none }

/-- The opening of what is open. Where it was is not told, and nothing hinges on that. -/
def marks (p : PageForms) : List PageMark :=
  (p.open?.map (.opens .start)).toList

theorem kept_marks_append_closes (p : PageForms) (marks : List PageMark) :
    PageMark.kept (p.marks ++ .closes :: marks) = p.open?.toList ++ PageMark.kept marks := by
  cases hopen : p.open? <;> simp [PageForms.marks, hopen, PageMark.kept, PageMark.opensAt?]

theorem kept_marks_append_opens (p : PageForms) (loc : Location) (form : PageForm)
    (marks : List PageMark) :
    PageMark.kept (p.marks ++ .opens loc form :: marks) =
      PageMark.kept ((p.take (.opens loc form)).marks ++ marks) := by
  cases hopen : p.open? <;> simp [take, PageForms.marks, hopen, PageMark.kept, PageMark.opensAt?]

/-- What is closed after marks and a last closing is what they keep, together with what was open
before them. -/
theorem closed_foldl_take (p : PageForms) (marks : List PageMark) (edge : PageEdge) :
    ((marks.foldl take p).take .closes).closed edge =
      p.closed edge ++ (PageMark.kept (p.marks ++ marks)).filter fun form => form.edge = edge := by
  -- What is open stands before the marks as an opening of its own, for the next mark to judge.
  induction marks generalizing p with
  | nil =>
    cases hopen : p.open? <;>
      simp [take, PageForms.marks, hopen, PageMark.kept, PageMark.opensAt?]
  | cons mark marks ih =>
    rw [List.foldl_cons, ih]
    cases mark with
    | closes =>
      rw [kept_marks_append_closes, List.filter_append, ← List.append_assoc]
      rfl
    | opens loc form =>
      rw [kept_marks_append_opens]
      rfl

theorem overtakings_marks (p : PageForms) : PageMark.overtakings p.marks = [] := by
  cases hopen : p.open? <;> simp [marks, hopen, PageMark.overtakings, PageMark.opensAt?]

theorem overtakings_marks_closes (p : PageForms) :
    PageMark.overtakings (p.marks ++ [.closes]) = [] := by
  cases hopen : p.open? <;> simp [marks, hopen, PageMark.overtakings, PageMark.opensAt?]

theorem overtakings_marks_opens (p : PageForms) (loc : Location) (form : PageForm) :
    PageMark.overtakings (p.marks ++ [.opens loc form]) =
      if p.open?.isSome then [loc] else [] := by
  cases hopen : p.open? <;> simp [marks, hopen, PageMark.overtakings, PageMark.opensAt?]

/-- What marks overtake is what the first of them does, and then the others. -/
theorem overtakings_cons (p : PageForms) (mark : PageMark) (marks : List PageMark) :
    PageMark.overtakings (p.marks ++ mark :: marks) =
      PageMark.overtakings (p.marks ++ [mark]) ++
        PageMark.overtakings ((p.take mark).marks ++ marks) := by
  cases mark <;> cases hopen : p.open? <;>
    simp [take, PageForms.marks, hopen, PageMark.overtakings, PageMark.opensAt?]

end PageForms

namespace Draft

variable (d : Draft) (loc : Location)

def pageForms : PageForms :=
  ⟨d.layout.forms, d.block.map PageBlock.form⟩

/-! ### Steps and runs -/

theorem pageForms_insert (insertion : Insertion) :
    (d.apply (.insert insertion)).pageForms = d.pageForms := by
  cases hslot : d.slot <;> cases hblock : d.block <;>
    simp [pageForms, layout, apply, hslot, hblock, PageBlock.form_insert]

theorem pageForms_dateInsertions : (d.apply .dateInsertions).pageForms = d.pageForms := by
  have hforms := d.layout.forms_withDate d.document.liturgicalDay.date
  rw [pageForms, pageForms, ← hforms]
  rfl

/-- Only what begins or ends a header or footer changes which there are. -/
theorem isViewOf_pageForms : IsViewOf pageForms [.blocks] := by
  intro d e he
  cases e with
  | insert insertion => exact d.pageForms_insert insertion
  | dateInsertions => exact d.pageForms_dateInsertions
  | openBlock _ _ | closeBlock => exact absurd (List.mem_singleton_self _) he
  | _ => rfl

/-- There is nothing to be closed unless a header or footer is open. -/
theorem pageForms_take_closes (hblock : d.block = none) :
    d.pageForms.take .closes = d.pageForms := by
  simp [pageForms, PageForms.take, hblock]

theorem pageForms_closeBlock : (d.apply .closeBlock).pageForms = d.pageForms.take .closes := by
  cases hblock : d.block with
  | none =>
    rw [d.pageForms_take_closes hblock]
    simp [pageForms, layout, apply, hblock]
  | some block =>
    have hlayout : (d.apply .closeBlock).layout = d.layout.add block := by
      simp [layout, apply, hblock]
    have hclosed : (d.apply .closeBlock).block = none := rfl
    simp only [pageForms, PageForms.take, hlayout, hclosed, hblock, Option.map_some,
      Option.map_none, Option.toList_some, PageForms.mk.injEq, and_true]
    exact funext (PageLayout.forms_add d.layout block)

/-- An event does to headers and footers what it says of them. -/
theorem pageForms_event (event : Event) :
    (d.event event).pageForms = event.pageMark?.toList.foldl PageForms.take d.pageForms := by
  match event with
  | .enter loc (.group (.pageBlock edge parity)) =>
    rw [event_eq, edits, enterEdits]
    change (applyAll _ (Edit.faultIf d.block.isSome loc .blockWithinBlock ++ _)).pageForms = _
    cases d.block.isSome <;> rfl
  | .exit loc (.group (.pageBlock edge parity)) =>
    rw [event_eq, edits, exitEdits]
    cases hblock : d.block with
    | none => exact (d.pageForms_take_closes hblock).symm
    | some block => exact pageForms_closeBlock (d.apply (.setSlot .outside))
  | .enter _ (.atom (.property _ _)) | .enter _ (.atom (.directive _))
  | .enter _ (.atom (.content _)) | .enter _ (.group .template) | .enter _ (.group (.position _))
  | .enter _ (.group (.lookup _)) | .enter _ (.group (.paragraph _ _))
  | .enter _ (.group (.span _)) | .exit _ (.atom _) | .exit _ (.group .template)
  | .exit _ (.group (.position _)) | .exit _ (.group (.lookup _))
  | .exit _ (.group (.paragraph _ _)) | .exit _ (.group (.span _)) =>
    exact isViewOf_pageForms.event_eq (by simp [Event.parts]) d

theorem pageForms_events (events : List Event) :
    (d.events events).pageForms =
      (events.filterMap Event.pageMark?).foldl PageForms.take d.pageForms := by
  induction events generalizing d with
  | nil => rfl
  | cons event events ih =>
    rw [events_cons, ih, pageForms_event, List.filterMap_cons]
    cases event.pageMark? <;> rfl

theorem pageForms_applyAll {edits : List Edit} (h : ∀ e ∈ edits, e.part ≠ .blocks) :
    (d.applyAll edits).pageForms = d.pageForms :=
  isViewOf_pageForms.applyAll_eq (fun e he hmem => h e he (List.mem_singleton.mp hmem)) d

theorem pageForms_finish : d.finish.pageForms = d.pageForms.take .closes := by
  let before := Edit.faultIf d.lookup.isSome d.last .lookupUnended ++
    Edit.faultIf (!d.spans.isEmpty) d.last .spanUnended ++
    Edit.doIf d.paragraph.isSome [.fault d.last .paragraphUnended, .closeParagraph false]
  let after := Edit.faultIf d.isUndatedService .start .serviceWithoutDate ++ [.dateInsertions]
  have hbefore : ∀ e ∈ before, e.part ≠ .blocks := by
    simp only [before, List.forall_mem_append, Edit.forall_mem_faultIf, Edit.forall_mem_doIf]
    simp [Edit.part, Edit.fault]
  have hafter : ∀ e ∈ after, e.part ≠ .blocks := by
    simp only [after, List.forall_mem_append, Edit.forall_mem_faultIf]
    simp [Edit.part, Edit.fault]
  have hedits : d.endEdits =
      before ++ Edit.doIf d.block.isSome [.fault d.last .blockUnended, .closeBlock] ++ after := by
    rw [endEdits, closingEdits, List.append_assoc]
  rw [finish_eq, hedits, applyAll_append _ _ after, applyAll_append _ before,
    pageForms_applyAll _ hafter]
  cases hblock : d.block with
  | none => exact (d.pageForms_applyAll hbefore).trans (d.pageForms_take_closes hblock).symm
  | some block =>
    have hclosed := pageForms_closeBlock ((d.applyAll before).report d.last .blockUnended)
    exact hclosed.trans (congrArg (·.take .closes) (d.pageForms_applyAll hbefore))

/-- In the end the layout has what is closed then. -/
theorem forms_finish : d.finish.layout.forms = (d.pageForms.take .closes).closed :=
  congrArg PageForms.closed d.pageForms_finish

/-! ### What is found -/

/-- The finding that tells of a header or footer which is entered before the open one is left. -/
def overtakingFinding (loc : Location) : Finding :=
  .certain loc .blockWithinBlock

theorem findings_enterBlock (edge : PageEdge) (parity : Parity) :
    (d.event (.enter loc (.group (.pageBlock edge parity)))).findings =
      d.findings ++ if d.block.isSome then [overtakingFinding loc] else [] := by
  rw [findings_event, edits, enterEdits]
  cases d.block <;> rfl

theorem exists_findings_event (event : Event) :
    ∃ found, (d.event event).findings = d.findings ++ found ∧
      ((PageMark.overtakings (d.pageForms.marks ++ event.pageMark?.toList)).map
        overtakingFinding).Sublist found := by
  cases hmark : event.pageMark? with
  | none =>
    obtain ⟨found, hfound⟩ := d.findings_prefix_events [event]
    rw [Option.toList_none, List.append_nil, PageForms.overtakings_marks]
    exact ⟨found, hfound.symm, List.nil_sublist found⟩
  | some mark =>
    cases mark with
    | closes =>
      obtain ⟨found, hfound⟩ := d.findings_prefix_events [event]
      rw [Option.toList_some, PageForms.overtakings_marks_closes]
      exact ⟨found, hfound.symm, List.nil_sublist found⟩
    | opens loc form =>
      obtain rfl := Event.eq_enter_of_pageMark?_eq_opens hmark
      refine ⟨_, d.findings_enterBlock loc form.edge form.parity, ?_⟩
      rw [Option.toList_some, PageForms.overtakings_marks_opens, pageForms, Option.isSome_map]
      cases d.block <;> exact .refl _

/-- Each header or footer that is overtaken is found fault with where the next one begins. -/
theorem exists_findings_events (events : List Event) :
    ∃ found, (d.events events).findings = d.findings ++ found ∧
      ((PageMark.overtakings (d.pageForms.marks ++ events.filterMap Event.pageMark?)).map
        overtakingFinding).Sublist found := by
  induction events generalizing d with
  | nil =>
    refine ⟨[], (List.append_nil _).symm, ?_⟩
    rw [List.filterMap_nil, List.append_nil, PageForms.overtakings_marks]
    exact .slnil
  | cons event events ih =>
    obtain ⟨first, hfirst, hevent⟩ := d.exists_findings_event event
    obtain ⟨rest, hrest, hevents⟩ := ih (d.event event)
    refine ⟨first ++ rest, ?_, ?_⟩
    · rw [events_cons, hrest, hfirst, List.append_assoc]
    · rw [pageForms_event] at hevents
      cases hmark : event.pageMark? with
      | none =>
        rw [List.filterMap_cons_none hmark]
        rw [hmark] at hevents
        exact hevents.trans (List.sublist_append_right first rest)
      | some mark =>
        rw [List.filterMap_cons_some hmark, PageForms.overtakings_cons, List.map_append]
        rw [hmark] at hevent hevents
        exact hevent.append hevents

end Draft

end Typikon
