import Typikon.Proofs.Compilation.Layout
import Typikon.Proofs.Draft.PageForms

/-!
Which headers and footers a compilation has, whatever the events: those that are entered, each with
its edge and its pages, except where one is entered right after another. There the first one is
lost with all that is in it, and the errors tell where the other one begins.
-/

namespace Typikon

theorem Draft.pageForms_start {name : String} {calendar : Reckoning} {reference : CivilDate}
    {d : Draft} (hstart : Draft.start name calendar reference = .ok d) :
    d.pageForms = ⟨fun _ => [], none⟩ := by
  obtain ⟨day, -, rfl⟩ := Draft.eq_of_start_eq_ok hstart
  simp only [pageForms, Option.map_none, PageForms.mk.injEq, and_true]
  funext edge
  cases edge <;> rfl

/-- What a started draft has in the end is what events keep. -/
theorem Draft.forms_finish_events {name : String} {calendar : Reckoning} {reference : CivilDate}
    {d : Draft} (hstart : Draft.start name calendar reference = .ok d) (events : List Event)
    (edge : PageEdge) :
    (d.events events).finish.layout.forms edge =
      (PageMark.kept (events.filterMap Event.pageMark?)).filter fun form => form.edge = edge := by
  rw [forms_finish, pageForms_events, PageForms.closed_foldl_take, pageForms_start hstart]
  rfl

theorem Draft.overtakings_sublist_findings {name : String} {calendar : Reckoning}
    {reference : CivilDate} {d : Draft} (hstart : Draft.start name calendar reference = .ok d)
    (events : List Event) :
    ((PageMark.overtakings (events.filterMap Event.pageMark?)).map overtakingFinding).Sublist
      (d.events events).finish.findings := by
  obtain ⟨found, hfound, hsublist⟩ := d.exists_findings_events events
  rw [pageForms_start hstart] at hsublist
  have hlast : found.Sublist (d.events events).findings := by
    rw [hfound]
    exact List.sublist_append_right d.findings found
  exact (hsublist.trans hlast).trans (findings_prefix_finish _).sublist

namespace Compilation

variable {σ : Type} {index : Index σ} {state : σ} {defaults : Defaults} {day : LiturgicalDay}

/-- Events in any order compile if the index answers what they ask. The headers and the footers are
then those that no other one is entered right after, in the order in which they are entered. There
are as many fewer than are entered as there are overtaken ones, so all are kept just if none is
overtaken. The errors tell where each of those that overtake another begins, and so nothing is lost
if there are no errors. -/
theorem forms_ofEvents (name : String) (events : List Event)
    (hday : LiturgicalDay.ofDate defaults.calendar defaults.date = .ok day)
    (hindex : index.AnswersAll
      ((Dating.initial defaults.calendar defaults.date day).questions events) state) :
    let marks := events.filterMap Event.pageMark?
    let overtakings := PageMark.overtakings marks
    ∃ c, (ofEvents index name defaults events state).1 = .ok c ∧
      (∀ edge, c.document.pdf.layout.forms edge =
        (PageMark.kept marks).filter fun form => form.edge = edge) ∧
      (PageMark.opened marks).length =
        c.document.pdf.layout.headers.length + c.document.pdf.layout.footers.length +
          overtakings.length ∧
      ((∀ edge, c.document.pdf.layout.forms edge =
        (PageMark.opened marks).filter fun form => form.edge = edge) ↔ overtakings = []) ∧
      (Diagnostic.tellAll c.document.id
        (overtakings.map fun loc =>
          ⟨.semantic, loc, Problem.blockWithinBlock.message⟩)).Sublist c.errors ∧
      (c.errors = [] → overtakings = []) := by
  intro marks overtakings
  obtain ⟨d, hstart, -⟩ := Draft.exists_start_eq_ok hday name
  obtain ⟨diagnostics, ⟨next, hsettle⟩, hcompiled⟩ :=
    exists_settle_of_answersAll hday hstart hindex
  have hforms (edge : PageEdge) : (d.events events).finish.document.pdf.layout.forms edge =
      (PageMark.kept marks).filter fun form => form.edge = edge :=
    Draft.forms_finish_events hstart events edge
  have htold : (overtakings.map fun loc =>
      (⟨.semantic, loc, Problem.blockWithinBlock.message⟩ : Diagnostic)).Sublist diagnostics := by
    have hcertain : ∀ finding ∈ overtakings.map Draft.overtakingFinding,
        finding.question? = none := by
      intro finding hmem
      obtain ⟨loc, -, rfl⟩ := List.mem_map.1 hmem
      rfl
    have hsettled := Finding.map_diagnostic_sublist_of_settle_eq_ok
      (Draft.overtakings_sublist_findings hstart events) hcertain hsettle
    rwa [List.map_map] at hsettled
  refine ⟨_, hcompiled, hforms, ?count, ?allKept, Diagnostic.tellAll_sublist _ htold, ?clean⟩
  case count =>
    rw [PageMark.length_opened, PageMark.length_filter_edges, ← hforms, ← hforms,
      PageLayout.forms, PageLayout.forms, List.length_map, List.length_map]
  case allKept =>
    simp only [hforms]
    exact PageMark.filter_kept_eq_iff marks
  case clean =>
    intro hclean
    rw [Diagnostic.tellAll_eq_nil_iff.1 hclean] at htold
    exact List.map_eq_nil_iff.1 (List.sublist_nil.1 htold)

/-- A header that is entered while another one is open, a footer that is entered while a header is,
and at last a header that is never left. -/
def crossingPageBlocks : List Event :=
  [.enter ⟨1, 1⟩ (.group (.pageBlock .header .both)),
    .enter ⟨2, 1⟩ (.group (.pageBlock .header .even)),
    .exit ⟨2, 1⟩ (.group (.pageBlock .header .even)),
    .exit ⟨1, 1⟩ (.group (.pageBlock .header .both)),
    .enter ⟨3, 1⟩ (.group (.pageBlock .header .odd)),
    .enter ⟨3, 20⟩ (.group (.position "left")),
    .enter ⟨4, 1⟩ (.group (.pageBlock .footer .both)),
    .exit ⟨3, 1⟩ (.group (.pageBlock .header .odd)),
    .enter ⟨5, 1⟩ (.group (.pageBlock .header .both))]

theorem forms_ofEvents_crossing :
    ∃ day, LiturgicalDay.ofDate .gregorian ⟨737425⟩ = .ok day ∧
      Index.full.AnswersAll
        ((Dating.initial .gregorian ⟨737425⟩ day).questions crossingPageBlocks) () ∧
      ∃ c, (ofEvents Index.full "t" ⟨.gregorian, ⟨737425⟩⟩ crossingPageBlocks ()).1 = .ok c ∧
        c.document.pdf.layout.forms .header = [⟨.header, .even⟩, ⟨.header, .both⟩] ∧
        c.document.pdf.layout.forms .footer = [⟨.footer, .both⟩] ∧
        (Diagnostic.tellAll c.document.id
          [⟨.semantic, ⟨2, 1⟩, Problem.blockWithinBlock.message⟩,
            ⟨.semantic, ⟨4, 1⟩, Problem.blockWithinBlock.message⟩]).Sublist c.errors := by
  obtain ⟨day, hday⟩ : ∃ day, LiturgicalDay.ofDate .gregorian ⟨737425⟩ = .ok day := ⟨_, rfl⟩
  have hindex : Index.full.AnswersAll
      ((Dating.initial .gregorian ⟨737425⟩ day).questions crossingPageBlocks) () := by
    have hquestions :
        (Dating.initial .gregorian ⟨737425⟩ day).questions crossingPageBlocks = [] := rfl
    rw [hquestions]
    trivial
  obtain ⟨c, hcompiled, hforms, -, -, htold, -⟩ :
      ∃ c, (ofEvents Index.full "t" ⟨.gregorian, ⟨737425⟩⟩ crossingPageBlocks ()).1 = .ok c ∧ _ :=
    forms_ofEvents "t" crossingPageBlocks hday hindex
  exact ⟨day, hday, hindex, c, hcompiled, hforms .header, hforms .footer, htold⟩

/-- Both headers of a header within a header are entered, and one of them is kept. -/
theorem not_kept_headerWithinHeader :
    ∃ c, (ofEvents Index.full "t" ⟨.gregorian, ⟨737425⟩⟩
        [.enter ⟨1, 1⟩ (.group (.pageBlock .header .both)),
          .enter ⟨2, 1⟩ (.group (.pageBlock .header .even)),
          .exit ⟨2, 1⟩ (.group (.pageBlock .header .even)),
          .exit ⟨1, 1⟩ (.group (.pageBlock .header .both))] ()).1 = .ok c ∧
      c.document.pdf.layout.headers = [.empty .header .even] ∧
      c.document.pdf.layout.headers.map PageBlock.form ≠
        [⟨.header, .both⟩, ⟨.header, .even⟩] :=
  ⟨_, rfl, rfl, by decide⟩

end Compilation

end Typikon
