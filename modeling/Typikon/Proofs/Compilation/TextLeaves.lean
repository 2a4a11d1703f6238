import Typikon.Proofs.Compilation.Questions
import Typikon.Proofs.Draft.TextLeaves

/-!
The text of compiled events. Whatever the order in which nodes are entered and left, each paragraph
that is entered is one of the document, and no leaf that is entered in a paragraph and outside a
lookup is lost.
-/

namespace Typikon

namespace Compilation

variable {σ : Type} {index : Index σ} {state : σ} {defaults : Defaults} {day : LiturgicalDay}
  {events : List Event}

/-- If the questions of events are all answered, the events compile, in any order and balanced or
not. There is a paragraph for each one that is entered, in the same order and with the same style.
The leaves in the paragraphs are some of those that are entered outside lookups, in the same order,
and among them are all that are entered while a paragraph is open. -/
theorem exists_keeps_textLeaves (name : String)
    (hday : LiturgicalDay.ofDate defaults.calendar defaults.date = .ok day)
    (hindex : index.AnswersAll
      ((Dating.initial defaults.calendar defaults.date day).questions events) state) :
    ∃ c, (ofEvents index name defaults events state).1 = .ok c ∧
      c.document.paragraphs.map Paragraph.style = events.filterMap Event.paragraphStyle? ∧
      ∃ kept,
        TextLeaf.Keeps kept
          (TextLeaf.ofEvents (.initial defaults.calendar defaults.date day) .outermost events) ∧
        c.document.paragraphs.flatMap Paragraph.pieces = kept.map TextLeaf.piece := by
  obtain ⟨d, hstart, hbody⟩ := Draft.exists_start_eq_ok hday name
  obtain ⟨diagnostics, -, hcompiled⟩ := exists_settle_of_answersAll hday hstart hindex
  have hparagraphs : (d.events events).finish.document.paragraphs =
      (d.body.events events).finish.closed := by
    rw [← Draft.body_events, ← Draft.body_finish]
    rfl
  refine ⟨_, hcompiled, ?_, ?_⟩
  · rw [hparagraphs, Body.map_style_closed_finish, Body.styles_events, hbody]
    rfl
  · have hholds : d.body.Holds [] [] [] := by
      rw [hbody]
      exact ⟨.refl [], rfl, rfl, fun _ => List.forall_mem_nil _⟩
    obtain ⟨settled, opened, hevents⟩ := Body.exists_holds_events hholds events
    obtain ⟨kept, hkeeps, hpieces⟩ := hevents.exists_keeps_finish
    rw [List.nil_append, hbody] at hkeeps
    refine ⟨kept, hkeeps, ?_⟩
    rw [hparagraphs]
    exact hpieces

/-- Events that end a span that was not begun, begin a paragraph within a span and another one
within the first, and leave both the second one and a span in it open. -/
def unbalancedEvents : List Event :=
  [.enter ⟨1, 1⟩ (.atom (.content (.literal "lost"))),
    .enter ⟨1, 1⟩ (.group (.span "span.early")),
    .enter ⟨1, 2⟩ (.atom (.content (.literal "loose"))),
    .enter ⟨2, 1⟩ (.group (.paragraph "p.first" false)),
    .enter ⟨2, 2⟩ (.atom (.content (.absolute "me/first"))),
    .enter ⟨3, 1⟩ (.group (.paragraph "p.second" true)),
    .exit ⟨1, 1⟩ (.group (.span "span.early")),
    .enter ⟨3, 2⟩ (.group (.lookup none)),
    .enter ⟨3, 3⟩ (.atom (.content (.absolute "me/title"))),
    .exit ⟨3, 2⟩ (.group (.lookup none)),
    .enter ⟨3, 4⟩ (.atom (.content (.literal "text"))),
    .enter ⟨3, 5⟩ (.group (.span "span.late")),
    .enter ⟨3, 6⟩ (.atom (.content (.media "me/audio")))]

theorem exists_keeps_textLeaves_unbalanced :
    ∃ day, LiturgicalDay.ofDate .gregorian ⟨737425⟩ = .ok day ∧
      Index.full.AnswersAll ((Dating.initial .gregorian ⟨737425⟩ day).questions unbalancedEvents)
        () ∧
      ∃ c, (ofEvents Index.full "t" ⟨.gregorian, ⟨737425⟩⟩ unbalancedEvents ()).1 = .ok c ∧
        c.document.paragraphs.map Paragraph.style = ["p.first", "p.second"] ∧
        TextLeaf.ofEvents (.initial .gregorian ⟨737425⟩ day) .outermost unbalancedEvents =
          [⟨.leaf "nid" (.literal "lost"), false⟩, ⟨.leaf "nid" (.literal "loose"), false⟩,
            ⟨.leaf "kvp" (.absolute "me/first"), true⟩, ⟨.leaf "nid" (.literal "text"), true⟩,
            ⟨.leaf "media" (.absolute "me/audio"), true⟩] ∧
        ∃ kept,
          TextLeaf.Keeps kept
            (TextLeaf.ofEvents (.initial .gregorian ⟨737425⟩ day) .outermost unbalancedEvents) ∧
          c.document.paragraphs.flatMap Paragraph.pieces = kept.map TextLeaf.piece := by
  obtain ⟨day, hday⟩ : ∃ day, LiturgicalDay.ofDate .gregorian ⟨737425⟩ = .ok day := ⟨_, rfl⟩
  have hquestions : (Dating.initial .gregorian ⟨737425⟩ day).questions unbalancedEvents =
      [⟨"me", "first"⟩, ⟨"me", "title"⟩, ⟨"me", "audio"⟩] := by
    cases hday
    decide +kernel
  have hindex : Index.full.AnswersAll
      ((Dating.initial .gregorian ⟨737425⟩ day).questions unbalancedEvents) () := by
    rw [hquestions]
    exact ⟨⟨true, rfl⟩, ⟨true, rfl⟩, ⟨true, rfl⟩, trivial⟩
  obtain ⟨c, hcompiled, hstyles, hkept⟩ :
      ∃ c, (ofEvents Index.full "t" ⟨.gregorian, ⟨737425⟩⟩ unbalancedEvents ()).1 = .ok c ∧ _ ∧ _ :=
    exists_keeps_textLeaves "t" hday hindex
  exact ⟨day, hday, hindex, c, hcompiled, hstyles, rfl, hkept⟩

end Compilation

end Typikon
