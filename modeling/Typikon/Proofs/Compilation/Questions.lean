import Typikon.Proofs.Compilation.Drivers
import Typikon.Proofs.Compilation.Paragraphs
import Typikon.Proofs.Draft.Leaves
import Typikon.Proofs.Index.Failing

/-!
What compiling a text asks of an index. The questions are settled by the text and the defaults, and
so is their order; the answers decide only how many of them are asked. A failure to answer is the
one thing that ends a compilation once there is a day to compile for.
-/

namespace Typikon

namespace Template

/-- The leaves of a template in the order of the source, each with the day in force where it
stands. -/
def leaves (t : Template) (dating : Dating) : List Leaf :=
  dating.leaves (Node.preorderOfAll t.items)

/-- The entries that the leaves of a template ask for, in the order of the source. -/
def questions (t : Template) (dating : Dating) : List Entry :=
  (t.leaves dating).filterMap fun leaf => leaf.content.wanted? leaf.day

end Template

/-- The entries that the leaves of events ask for. -/
def Dating.questions (t : Dating) (events : List Event) : List Entry :=
  (t.leaves (events.filterMap Event.entered?)).filterMap fun leaf => leaf.content.wanted? leaf.day

namespace Compilation

variable {σ : Type} {name : String} {defaults : Defaults} {day : LiturgicalDay} {d : Draft}

theorem dating_start (hday : LiturgicalDay.ofDate defaults.calendar defaults.date = .ok day)
    (hstart : Draft.start name defaults.calendar defaults.date = .ok d) :
    d.dating = .initial defaults.calendar defaults.date day := by
  obtain ⟨day', hday', rfl⟩ := Draft.eq_of_start_eq_ok hstart
  obtain rfl : day = day' := Except.ok.inj (hday.symm.trans hday')
  rfl

theorem questions_finish_events
    (hday : LiturgicalDay.ofDate defaults.calendar defaults.date = .ok day)
    (hstart : Draft.start name defaults.calendar defaults.date = .ok d) (events : List Event) :
    (d.events events).finish.questions =
      ((Dating.initial defaults.calendar defaults.date day).leaves
        (events.filterMap Event.entered?)).filterMap Leaf.question? := by
  have hnone : d.questions = [] := by
    rw [Draft.questions, findings_start hstart]
    rfl
  rw [Draft.questions_finish, Draft.questions_events, hnone, List.nil_append,
    dating_start hday hstart]

theorem questions_finish_nodes
    (hday : LiturgicalDay.ofDate defaults.calendar defaults.date = .ok day)
    (hstart : Draft.start name defaults.calendar defaults.date = .ok d) (t : Template) :
    (d.nodes t.items).finish.questions =
      (t.leaves (.initial defaults.calendar defaults.date day)).filterMap Leaf.question? := by
  rw [← Draft.events_eventsOfAll, questions_finish_events hday hstart,
    Node.filterMap_entered?_eventsOfAll, Template.leaves]

/-- The entries that leaves ask for. -/
theorem map_snd_filterMap_question? (leaves : List Leaf) :
    (leaves.filterMap Leaf.question?).map Prod.snd =
      leaves.filterMap fun leaf => leaf.content.wanted? leaf.day := by
  have hentry (leaf : Leaf) : leaf.question?.map Prod.snd = leaf.content.wanted? leaf.day := by
    rw [Leaf.question?, Option.map_map]
    exact Option.map_id'
  rw [List.map_filterMap]
  exact congrArg (leaves.filterMap ·) (funext hentry)

theorem filterMap_question?_finish_events
    (hday : LiturgicalDay.ofDate defaults.calendar defaults.date = .ok day)
    (hstart : Draft.start name defaults.calendar defaults.date = .ok d) (events : List Event) :
    (d.events events).finish.findings.filterMap Finding.question? =
      (Dating.initial defaults.calendar defaults.date day).questions events := by
  rw [Finding.filterMap_question?_eq, ← Draft.questions, questions_finish_events hday hstart,
    map_snd_filterMap_question?, Dating.questions]

/-- Events compile to the document of their draft if all that they ask is answered, and what remains
of the findings are the errors. -/
theorem exists_settle_of_answersAll {index : Index σ} {state : σ} {events : List Event}
    (hday : LiturgicalDay.ofDate defaults.calendar defaults.date = .ok day)
    (hstart : Draft.start name defaults.calendar defaults.date = .ok d)
    (hindex : index.AnswersAll
      ((Dating.initial defaults.calendar defaults.date day).questions events) state) :
    let document := (d.events events).finish.document
    ∃ diagnostics,
      (∃ next, Finding.settle index (d.events events).finish.findings state =
        (.ok diagnostics, next)) ∧
      (ofEvents index name defaults events state).1 =
        .ok ⟨document, Diagnostic.tellAll document.id diagnostics⟩ := by
  have hquestions := filterMap_question?_finish_events hday hstart events
  have hall : index.AnswersAll (List.filterMap _ _) state := hquestions.substr hindex
  obtain ⟨⟨diagnostics, hsettle⟩, -⟩ := Finding.settle_of_answersAll hall
  refine ⟨diagnostics, ⟨_, hsettle⟩, ?_⟩
  simp only [ofEvents, build, hstart, ofDraft, hsettle]

theorem filterMap_question?_finish
    (hday : LiturgicalDay.ofDate defaults.calendar defaults.date = .ok day)
    (hstart : Draft.start name defaults.calendar defaults.date = .ok d) (t : Template) :
    (d.nodes t.items).finish.findings.filterMap Finding.question? =
      t.questions (.initial defaults.calendar defaults.date day) := by
  rw [← Draft.events_eventsOfAll, filterMap_question?_finish_events hday hstart, Dating.questions,
    Node.filterMap_entered?_eventsOfAll, Template.questions, Template.leaves]

theorem ofText_of_streamText {index : Index σ} {text : String} {state next : σ}
    {answer : Except CompileError Discovery}
    (h : streamText index name defaults text state = (answer, next)) :
    ofText index name defaults text state = (answer.map Discovery.compilation, next) := by
  rw [ofText_eq, Asking.map_apply, h]

/-- What comes of a text, and what is asked for it, once the findings of its draft are settled. -/
theorem compiles_of_settle {index : Index σ} {text : String} {state next : σ}
    {answer : Except IndexError (List Diagnostic)} {asked : List Entry}
    (hstart : Draft.start name defaults.calendar defaults.date = .ok d)
    (hsettle : Finding.settle index (d.nodes (Template.ofText text).items).finish.findings state =
      (answer, next))
    (hasked : Finding.asked index (d.nodes (Template.ofText text).items).finish.findings state =
      asked) (log : List Entry) :
    let result : Except CompileError Discovery := (answer.map fun diagnostics =>
      ⟨(d.nodes (Template.ofText text).items).finish.document,
        (Template.ofText text).errors.map SyntaxError.diagnostic ++ diagnostics⟩).mapError .index
    streamText index.logged name defaults text (state, log) = (result, next, log ++ asked) ∧
      ofText index.logged name defaults text (state, log) =
        (result.map Discovery.compilation, next, log ++ asked) ∧
      ofText index name defaults text state = (result.map Discovery.compilation, next) := by
  intro result
  let document := (d.nodes (Template.ofText text).items).finish.document
  have hwalk : walk index name defaults (Template.ofText text).items state =
      ((answer.map (Discovery.mk document)).mapError .index, next) := by
    rw [walk_apply hstart, hsettle]
  have hresult : ((answer.map (Discovery.mk document)).mapError CompileError.index).map
      (Discovery.precededBy ((Template.ofText text).errors.map SyntaxError.diagnostic)) =
        result := by
    cases answer <;> rfl
  have hstream : streamText index name defaults text state = (result, next) := by
    rw [streamText_eq_walk, Asking.map_apply, hwalk, hresult]
  have hlogged : streamText index.logged name defaults text (state, log) =
      (result, next, log ++ asked) := by
    rw [streamText_eq_walk, Asking.map_apply, walk_logged, hwalk, hresult, Compilation.asked,
      hstart, ← hasked]
  exact ⟨hlogged, ofText_of_streamText hlogged, ofText_of_streamText hstream⟩

/-- The questions of a text are asked in their order, each as the compilation comes upon it. If all
are answered the text compiles, whatever is wrong with it. The first failure is the last question to
be asked, and is what comes of the compilation. -/
theorem asks_until_first_failure (index : Index σ) (name : String) (defaults : Defaults)
    (text : String) (hday : LiturgicalDay.ofDate defaults.calendar defaults.date = .ok day)
    (state : σ) (log : List Entry) :
    let questions :=
      (Template.ofText text).questions (.initial defaults.calendar defaults.date day)
    (index.AnswersAll questions state →
      ∃ found,
        streamText index.logged name defaults text (state, log) =
          (.ok found, index.after state questions, log ++ questions) ∧
        ofText index.logged name defaults text (state, log) =
          (.ok found.compilation, index.after state questions, log ++ questions) ∧
        ofText index name defaults text state =
          (.ok found.compilation, index.after state questions)) ∧
    (∀ before entry later cause next, questions = before ++ entry :: later →
      index.FailsAfter before entry state cause next →
        streamText index.logged name defaults text (state, log) =
          (.error (.index cause), next, log ++ (before ++ [entry])) ∧
        ofText index.logged name defaults text (state, log) =
          (.error (.index cause), next, log ++ (before ++ [entry])) ∧
        ofText index name defaults text state = (.error (.index cause), next)) ∧
    (index.AnswersAll questions state ∨
      ∃ before entry later cause next, questions = before ++ entry :: later ∧
        index.FailsAfter before entry state cause next) := by
  obtain ⟨d, hstart, -⟩ := Draft.exists_start_eq_ok hday name
  have hquestions := filterMap_question?_finish hday hstart (Template.ofText text)
  intro questions
  refine ⟨?_, ?_, index.answersAll_or_failsAfter questions state⟩
  · intro hanswers
    have hall : index.AnswersAll (List.filterMap _ _) state := hquestions.substr hanswers
    obtain ⟨⟨diagnostics, hsettle⟩, hasked⟩ := Finding.settle_of_answersAll hall
    rw [hquestions] at hsettle hasked
    exact ⟨_, compiles_of_settle hstart hsettle hasked log⟩
  · intro before entry later cause next hsplit hfails
    obtain ⟨hsettle, hasked⟩ := Finding.settle_of_failsAfter (hquestions.trans hsplit) hfails
    exact compiles_of_settle hstart hsettle hasked log

/-- A text that asks for three entries. It has a word that is no item, and a path that lacks its
slash. -/
def oopsText : String :=
  "\x7b p.hymn sid \"me/first\" rid \"oc.*/k\" \x7d oops " ++
    "\x7b p.hymn sid \"me\" media \"me/last\" \x7d"

theorem asks_until_first_failure_oops :
    ∃ day, LiturgicalDay.ofDate .gregorian ⟨737425⟩ = .ok day ∧
      (Template.ofText oopsText).questions (.initial .gregorian ⟨737425⟩ day) =
        [⟨"me", "first"⟩, ⟨"oc.m3.d4", "k"⟩, ⟨"me", "last"⟩] ∧
      streamText Index.scripted.logged "t" ⟨.gregorian, ⟨737425⟩⟩ oopsText
          ([.ok true, .error (.unavailable "down"), .ok true], []) =
        (.error (.index (.unavailable "down")), [.ok true],
          [⟨"me", "first"⟩, ⟨"oc.m3.d4", "k"⟩]) := by
  obtain ⟨day, hday⟩ : ∃ day, LiturgicalDay.ofDate .gregorian ⟨737425⟩ = .ok day := ⟨_, rfl⟩
  have hquestions : (Template.ofText oopsText).questions (.initial .gregorian ⟨737425⟩ day) =
      [⟨"me", "first"⟩, ⟨"oc.m3.d4", "k"⟩, ⟨"me", "last"⟩] := by
    cases hday
    decide +kernel
  obtain ⟨-, hfails, -⟩ := asks_until_first_failure Index.scripted "t" ⟨.gregorian, ⟨737425⟩⟩
    oopsText hday [.ok true, .error (.unavailable "down"), .ok true] []
  obtain ⟨hstream, -, -⟩ := hfails [⟨"me", "first"⟩] ⟨"oc.m3.d4", "k"⟩ [⟨"me", "last"⟩]
    (.unavailable "down") [.ok true] hquestions ⟨⟨⟨true, rfl⟩, trivial⟩, rfl⟩
  exact ⟨day, hday, hquestions, hstream⟩

end Compilation

end Typikon
