import Typikon.Proofs.Compilation.Questions
import Typikon.Proofs.Draft.PageBlocksOfTree
import Typikon.Proofs.Draft.References

/-!
The headers and footers of compiled templates. A draft keeps track of the open block, the open slot
and the open lookup, and sets all dates in the end; still, what comes of a template that nests as
the grammar allows is what its page blocks stand for, and whatever stands for nothing is told.
-/

namespace Typikon

theorem Draft.betweenBlocks_start {name : String} {calendar : Reckoning} {reference : CivilDate}
    {d : Draft} (hstart : Draft.start name calendar reference = .ok d) :
    d.BetweenBlocks ∧ d.layout = .empty := by
  obtain ⟨day, -, rfl⟩ := Draft.eq_of_start_eq_ok hstart
  exact ⟨⟨⟨⟨rfl, rfl⟩, rfl⟩, rfl, rfl⟩, rfl⟩

namespace Compilation

variable {σ : Type} {index : Index σ} {state : σ} {defaults : Defaults} {day : LiturgicalDay}
  {items : List Node}

/-- The headers and footers of a compiled template are those that its page blocks stand for on the
day of its document, in the order of the source. Each position without a slot, and each child of a
position that stands for nothing, is told of in the errors. -/
theorem layout_eq_image (name : String)
    (hnest : Node.NestIn .template items)
    (hday : LiturgicalDay.ofDate defaults.calendar defaults.date = .ok day)
    (hindex : index.AnswersAll
      ((Dating.initial defaults.calendar defaults.date day).questions (Node.eventsOfAll items))
      state) :
    ∃ c, (ofNodes index name defaults items state).1 = .ok c ∧
      (ofEvents index name defaults (Node.eventsOfAll items) state).1 = .ok c ∧
      (let dating := Dating.initial defaults.calendar defaults.date day
      let blocks := dating.pageBlocks c.document.liturgicalDay.date items
      c.document.pdf.layout =
          ⟨blocks.filter fun b => b.edge = .header, blocks.filter fun b => b.edge = .footer⟩ ∧
        (Diagnostic.tellAll c.document.id
          ((dating.pageFaults items).map Finding.diagnostic)).Sublist c.errors) := by
  obtain ⟨d, hstart, -⟩ := Draft.exists_start_eq_ok hday name
  obtain ⟨diagnostics, ⟨next, hsettle⟩, hcompiled⟩ :=
    exists_settle_of_answersAll hday hstart hindex
  have hsame : ofEvents index name defaults (Node.eventsOfAll items) state =
      ofNodes index name defaults items state := by
    simp only [ofEvents, ofNodes, Draft.events_eventsOfAll]
  obtain ⟨hbetween, hempty⟩ := Draft.betweenBlocks_start hstart
  obtain ⟨hlast, hgets⟩ := hbetween.gets_nodes hnest
  rw [dating_start hday hstart] at hgets
  rw [Draft.events_eventsOfAll] at hsettle hcompiled
  refine ⟨_, hsame ▸ hcompiled, hcompiled, ?_, ?_⟩
  · calc
      (d.nodes items).finish.document.pdf.layout =
          (d.nodes items).layout.withDate (d.nodes items).finish.document.liturgicalDay.date := by
        rw [Draft.layout_finish, ← Draft.layout, Draft.layout_closeAll hlast.block]
      _ = _ := by
        rw [hgets.layout, hempty, PageLayout.foldl_add]
        rfl
  · obtain ⟨findings, hfindings, hfaults⟩ := hgets.finds
    have hfound : (Dating.pageFaults (.initial defaults.calendar defaults.date day) items).Sublist
        (d.nodes items).finish.findings := by
      have hbefore : findings.Sublist (d.nodes items).findings := by
        rw [hfindings]
        exact List.sublist_append_right _ _
      have hafter := (Draft.findings_prefix_finish (d.nodes items)).sublist
      exact (hfaults.trans hbefore).trans hafter
    apply Diagnostic.tellAll_sublist
    exact Finding.map_diagnostic_sublist_of_settle_eq_ok hfound
      (Dating.question?_of_mem_pageFaults _ items) hsettle

/-- A template with a header that names a slot twice and one that does not exist, and in which a
directive and two lookups stand for nothing. Its date is set before and after that. -/
def crowdedItems : List Node :=
  [.atom ⟨1, 1⟩ (.property "Year" (.integer 2021)),
    .atom ⟨1, 13⟩ (.property "Month" (.integer 5)),
    .group ⟨2, 1⟩ (.pageBlock .header .odd)
      [.group ⟨2, 17⟩ (.position "left")
          [.atom ⟨2, 22⟩ (.directive "Date"), .atom ⟨2, 28⟩ (.directive "Today"),
            .group ⟨2, 35⟩ (.lookup (some 2)) [.atom ⟨2, 43⟩ (.content (.absolute "me/title"))]],
        .group ⟨3, 1⟩ (.position "middle") [.atom ⟨3, 8⟩ (.directive "Date")],
        .group ⟨4, 1⟩ (.position "LEFT")
          [.group ⟨4, 6⟩ (.lookup (some 4)) [.atom ⟨4, 14⟩ (.content (.absolute "me/key"))],
            .atom ⟨4, 31⟩ (.content (.literal "Vespers")), .group ⟨4, 45⟩ (.lookup (some 1)) []]],
    .group ⟨5, 1⟩ (.pageBlock .footer .both)
      [.group ⟨5, 14⟩ (.position "right") [.atom ⟨5, 20⟩ (.directive "PageNbr")]],
    .atom ⟨6, 1⟩ (.property "Day" (.integer 2))]

theorem nestIn_crowdedItems : Node.NestIn .template crowdedItems := by
  simp only [crowdedItems, Node.nestIn_cons, Node.nestIn_nil, Node.nests_atom, Node.nests_group,
    Node.head]
  repeat' constructor

theorem layout_eq_image_crowded :
    Node.NestIn .template crowdedItems ∧
      ∃ day, LiturgicalDay.ofDate .gregorian ⟨737425⟩ = .ok day ∧
        Index.full.AnswersAll
          ((Dating.initial .gregorian ⟨737425⟩ day).questions (Node.eventsOfAll crowdedItems)) () ∧
        ∃ c, (ofNodes Index.full "t" ⟨.gregorian, ⟨737425⟩⟩ crowdedItems ()).1 = .ok c ∧
          c.document.pdf.layout =
            ⟨[⟨.header, .odd,
                [.date "span.date" (some c.document.liturgicalDay.date),
                  .lookup "span.lookup" ⟨[.absolute "me/title"], 2⟩,
                  .literal "span.literal" "Vespers"],
                [], []⟩],
              [⟨.footer, .both, [], [], [.pageNumber "span.pageNbr"]⟩]⟩ ∧
          (Diagnostic.tellAll c.document.id
            [⟨.semantic, ⟨2, 28⟩, (Problem.unknownDirective "Today").message⟩,
              ⟨.semantic, ⟨3, 1⟩, (Problem.keyword
                ⟨"header/footer slot position", "middle", "left, center, right"⟩).message⟩,
              ⟨.semantic, ⟨4, 6⟩, (Problem.libraryOutOfRange 4).message⟩,
              ⟨.semantic, ⟨4, 45⟩, Problem.lookupEmpty.message⟩]).Sublist c.errors := by
  obtain ⟨day, hday⟩ : ∃ day, LiturgicalDay.ofDate .gregorian ⟨737425⟩ = .ok day := ⟨_, rfl⟩
  have hquestions : (Dating.initial .gregorian ⟨737425⟩ day).questions
      (Node.eventsOfAll crowdedItems) = [⟨"me", "title"⟩, ⟨"me", "key"⟩] := by
    cases hday
    decide +kernel
  have hindex : Index.full.AnswersAll
      ((Dating.initial .gregorian ⟨737425⟩ day).questions (Node.eventsOfAll crowdedItems)) () := by
    rw [hquestions]
    exact ⟨⟨true, rfl⟩, ⟨true, rfl⟩, trivial⟩
  obtain ⟨c, hcompiled, -, hlayout, herrors⟩ :
      ∃ c, (ofNodes Index.full "t" ⟨.gregorian, ⟨737425⟩⟩ crowdedItems ()).1 = .ok c ∧ _ ∧ _ ∧ _ :=
    layout_eq_image "t" nestIn_crowdedItems hday hindex
  exact ⟨nestIn_crowdedItems, day, hday, hindex, c, hcompiled, hlayout, herrors⟩

end Compilation

end Typikon
