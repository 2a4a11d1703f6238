import Typikon.Proofs.Compilation.Questions

/-!
Tasks of a compiler: the text of a template, its nodes, or events, with a name and defaults. All
come to a draft that takes events, after what the reading of a text has found fault with.
-/

namespace Typikon

/-- What is compiled: the text of a template, its nodes, or events that need not come from any. -/
inductive Source where
  | text (text : String)
  | nodes (nodes : List Node)
  | events (events : List Event)

structure Task where
  name : String
  defaults : Defaults
  source : Source

namespace Source

/-- The diagnostics from the reading of a text. Nodes and events are not read. -/
def diagnostics : Source → List Diagnostic
  | .text characters => (Template.ofText characters).errors.map SyntaxError.diagnostic
  | .nodes _ => []
  | .events _ => []

def stream : Source → List Event
  | .text characters => (Template.ofText characters).events
  | .nodes items => Node.eventsOfAll items
  | .events stream => stream

/-- The nodes that are entered, one after another. -/
def heads (source : Source) : List (Location × Node.Head) :=
  source.stream.filterMap Event.entered?

/-- What a source makes of a draft. -/
def steps (source : Source) (d : Draft) : Draft :=
  (d.tell source.diagnostics).events source.stream

/-- All that a source asks for are entries without slashes of their own. -/
theorem isPlain_of_mem_questions (source : Source) {d : Draft} (hd : d.findings = []) :
    ∀ entry ∈ (source.steps d).finish.findings.filterMap Finding.question?, entry.IsPlain := by
  have hnone : (d.tell source.diagnostics).questions = [] := by
    rw [Draft.questions, Compilation.findings_tell hd, List.filterMap_map]
    exact List.filterMap_eq_nil_iff.2 fun diagnostic _ => rfl
  intro entry hentry
  rw [Finding.filterMap_question?_eq, ← Draft.questions, Draft.questions_finish, steps,
    Draft.questions_events, hnone, List.nil_append] at hentry
  obtain ⟨asked, hasked, rfl⟩ := List.mem_map.1 hentry
  obtain ⟨leaf, -, hquestion⟩ := List.mem_filterMap.1 hasked
  obtain ⟨entry, hwanted, rfl⟩ := Option.map_eq_some_iff.1 hquestion
  exact Content.isPlain_of_wanted? hwanted

end Source

namespace Compilation

theorem ofDraft_apply {σ : Type} (index : Index σ) (d : Draft) (state : σ) :
    ofDraft index d state =
      (((Finding.settle index d.finish.findings state).1.map fun diagnostics =>
          (⟨d.finish.document, Diagnostic.tellAll d.finish.document.id diagnostics⟩ :
            Compilation)).mapError .index,
        (Finding.settle index d.finish.findings state).2) := by
  unfold ofDraft
  dsimp only
  rcases Finding.settle index d.finish.findings state with ⟨cause | diagnostics, next⟩ <;> rfl

end Compilation

namespace Task

variable {σ : Type}

def compile (index : Index σ) (task : Task) (state : σ) : Except CompileError Compilation × σ :=
  match task.source with
  | .text text => Compilation.ofText index task.name task.defaults text state
  | .nodes nodes => Compilation.ofNodes index task.name task.defaults nodes state
  | .events events => Compilation.ofEvents index task.name task.defaults events state

/-- Compiles one task after another. Each finds the index as the one before has left it, whether
that failed or not. -/
def compileAll (index : Index σ) : List Task → σ → List (Except CompileError Compilation) × σ
  | [], state => ([], state)
  | task :: tasks, state =>
    let (result, next) := task.compile index state
    let (results, last) := compileAll index tasks next
    (result :: results, last)

theorem compile_eq_build (index : Index σ) (task : Task) :
    task.compile index =
      Compilation.build index task.name task.defaults task.source.steps := by
  obtain ⟨name, defaults, source⟩ := task
  have htell (d : Draft) : d.tell [] = d := by simp [Draft.tell, Draft.addFindings]
  cases source with
  | text characters => rfl
  | nodes items =>
    have hsteps : (Source.nodes items).steps = fun d => d.nodes items := by
      funext d
      exact (congrArg (Draft.events · _) (htell d)).trans (Draft.events_eventsOfAll d items)
    rw [hsteps]
    rfl
  | events stream =>
    have hsteps : (Source.events stream).steps = fun d => d.events stream := by
      funext d
      exact congrArg (Draft.events · _) (htell d)
    rw [hsteps]
    rfl

end Task

end Typikon
