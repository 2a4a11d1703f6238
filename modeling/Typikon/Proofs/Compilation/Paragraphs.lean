import Typikon.Proofs.Draft.BodyOfTree
import Typikon.Proofs.Draft.Walk
import Typikon.Proofs.Index.Answering

/-!
The paragraphs of compiled templates. A draft is made by events that know nothing of each other;
still, what comes of a template that nests as the grammar allows is what its nodes stand for.
-/

namespace Typikon

theorem Draft.exists_start_eq_ok {calendar : Reckoning} {reference : CivilDate}
    {day : LiturgicalDay}
    (hday : LiturgicalDay.ofDate calendar reference = .ok day) (name : String) :
    ∃ d, Draft.start name calendar reference = .ok d ∧
      d.body = ⟨.initial calendar reference day, [], none, [], false⟩ := by
  unfold Draft.start
  rw [hday]
  exact ⟨_, rfl, rfl⟩

namespace Compilation

variable {σ : Type} {index : Index σ} {state : σ} {defaults : Defaults} {day : LiturgicalDay}
  {items : List Node}

/-- The paragraphs of a compiled template are those that its nodes stand for, whatever is wrong with
it otherwise, and its references are those of the leaves in the order of the source. -/
theorem paragraphs_eq_image (name : String)
    (hnest : Node.NestIn .template items)
    (hday : LiturgicalDay.ofDate defaults.calendar defaults.date = .ok day)
    (hindex : index.NeverFails state) :
    ∃ c, (ofNodes index name defaults items state).1 = .ok c ∧
      (ofEvents index name defaults (Node.eventsOfAll items) state).1 = .ok c ∧
      c.document.paragraphs =
        (Dating.initial defaults.calendar defaults.date day).paragraphs items ∧
      c.document.references =
        (Dating.initial defaults.calendar defaults.date day).references items := by
  obtain ⟨d, hstart, hbody⟩ := Draft.exists_start_eq_ok hday name
  have hsame : ofEvents index name defaults (Node.eventsOfAll items) state =
      ofNodes index name defaults items state := by
    simp only [ofEvents, ofNodes, Draft.events_eventsOfAll]
  obtain ⟨c, hcompiled, hdocument⟩ :=
    exists_build_eq_ok (fun d => d.events (Node.eventsOfAll items)) hstart hindex
  have hidle : d.body.IsIdle := by rw [hbody]; exact ⟨rfl, rfl⟩
  obtain ⟨hafter, hclosed⟩ := hidle.events_of_items (by rw [hbody]) hnest
  have hparagraphs : c.document.paragraphs =
      (Dating.initial defaults.calendar defaults.date day).paragraphs items := by
    calc
      c.document.paragraphs = (d.events (Node.eventsOfAll items)).finish.body.closed := by
        rw [hdocument]; rfl
      _ = (d.body.events (Node.eventsOfAll items)).finish.closed := by
        rw [Draft.body_finish, Draft.body_events]
      _ = (d.body.events (Node.eventsOfAll items)).closed := by
        simp [Body.finish, hafter.paragraph]
      _ = (Dating.initial defaults.calendar defaults.date day).paragraphs items := by
        rw [hclosed, hbody]; rfl
  refine ⟨c, hsame ▸ hcompiled, hcompiled, hparagraphs, ?_⟩
  rw [Document.references, hparagraphs, Dating.references_paragraphs]

/-- A template for 2 May 2021, Pascha: a header whose lookup lacks its library, and a paragraph with
a path that lacks its slash and a mode that does not exist. -/
def paschalItems : List Node :=
  [.atom ⟨1, 1⟩ (.property "Year" (.integer 2021)),
    .atom ⟨2, 1⟩ (.property "Month" (.integer 5)),
    .atom ⟨3, 1⟩ (.property "Day" (.integer 2)),
    .group ⟨4, 1⟩ (.pageBlock .header .both)
      [.group ⟨4, 14⟩ (.position "left")
        [.group ⟨4, 19⟩ (.lookup none) [.atom ⟨4, 27⟩ (.content (.absolute "titles/matins"))],
          .atom ⟨4, 47⟩ (.content (.literal "Matins"))]],
    .group ⟨5, 3⟩ (.paragraph "p.hymn" true)
      [.group ⟨5, 10⟩ (.span "span.rubric")
        [.atom ⟨5, 24⟩ (.content (.absolute "actors")),
          .group ⟨5, 39⟩ (.span "span.it")
            [.atom ⟨5, 49⟩ (.content (.relative "oc.*/ocMA.Kathisma" [⟨.mode, 9, ⟨5, 75⟩⟩]))]]]]

theorem paragraphs_eq_image_paschal :
    Node.NestIn .template paschalItems ∧
      ∃ day, LiturgicalDay.ofDate .gregorian ⟨737425⟩ = .ok day ∧ Index.full.NeverFails () ∧
        ∃ c, (ofNodes Index.full "t" ⟨.gregorian, ⟨737425⟩⟩ paschalItems ()).1 = .ok c ∧
          c.document.paragraphs =
            [⟨"p.hymn",
              [⟨"span.rubric",
                [⟨"kvp", [], some (.absolute "actors")⟩,
                  ⟨"span.it",
                    [⟨"kvp", [], some (.relative "oc.*/ocMA.Kathisma" "oc.m1.d1/ocMA.Kathisma"
                      none none)⟩],
                    none⟩],
                none⟩],
              some Paragraph.versionSpan⟩] := by
  have hnest : Node.NestIn .template paschalItems := by
    simp only [paschalItems, Node.nestIn_cons, Node.nests_atom, Node.nests_group, Node.nestIn_nil,
      and_true, true_and]
    exact ⟨.property _ _, .property _ _, .property _ _,
      .pageBlock _ _, ⟨.position _, .lookup _, .absolute _, .literal _⟩,
      .paragraph _ _, .spanOfParagraph _, .leafOfSpan _, .spanOfSpan _, .leafOfSpan _⟩
  obtain ⟨day, hday⟩ : ∃ day, LiturgicalDay.ofDate .gregorian ⟨737425⟩ = .ok day := ⟨_, rfl⟩
  obtain ⟨c, hcompiled, -, hparagraphs, -⟩ :
      ∃ c, (ofNodes Index.full "t" ⟨.gregorian, ⟨737425⟩⟩ paschalItems ()).1 = .ok c ∧ _ ∧ _ ∧ _ :=
    paragraphs_eq_image "t" hnest hday (Index.neverFails_full ())
  refine ⟨hnest, day, hday, Index.neverFails_full (), c, hcompiled, hparagraphs.trans ?_⟩
  cases hday
  rfl

end Compilation

end Typikon
