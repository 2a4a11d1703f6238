import Typikon.Draft.Finish
import Typikon.Template.Basic

/-!
Compilation of templates. Whatever is wrong with a template, compiling it gives a document and tells
the errors; only an index that fails or a default date without a liturgical day prevents that.

A template can be compiled from its text, from its nodes, or from a stream of events.
-/

namespace Typikon

/-- A document, and the errors of its template in the order of the source. -/
structure Compilation where
  document : Document
  errors : List TemplateError

/-- What a template falls back on where it names no calendar or no date. -/
structure Defaults where
  calendar : Reckoning
  date : CivilDate
deriving DecidableEq

inductive CompileError where
  | index (cause : IndexError)
  | date (cause : CalendarError)
deriving DecidableEq

namespace CompileError

def message : CompileError → String
  | .index cause => cause.message
  | .date cause => s!"invalid reference date: {cause.message}"

end CompileError

namespace Compilation

def hasErrors (c : Compilation) : Bool :=
  !c.errors.isEmpty

variable {σ : Type}

def ofDraft (index : Index σ) (d : Draft) (state : σ) : Except CompileError Compilation × σ :=
  let finished := d.finish
  match Finding.settle index finished.findings state with
  | (.error e, state) => (.error (.index e), state)
  | (.ok diagnostics, state) =>
    (.ok ⟨finished.document, Diagnostic.tellAll finished.document.id diagnostics⟩, state)

def build (index : Index σ) (name : String) (defaults : Defaults) (steps : Draft → Draft)
    (state : σ) : Except CompileError Compilation × σ :=
  match Draft.start name defaults.calendar defaults.date with
  | .error cause => (.error (.date cause), state)
  | .ok d => ofDraft index (steps d) state

def ofNodes (index : Index σ) (name : String) (defaults : Defaults) (nodes : List Node)
    (state : σ) : Except CompileError Compilation × σ :=
  build index name defaults (·.nodes nodes) state

/-- Compiles events, which need not come from any nodes. -/
def ofEvents (index : Index σ) (name : String) (defaults : Defaults) (events : List Event)
    (state : σ) : Except CompileError Compilation × σ :=
  build index name defaults (·.events events) state

/-- Compiles the text of a template. Its syntax errors are found before all others. -/
def ofText (index : Index σ) (name : String) (defaults : Defaults) (text : String) (state : σ) :
    Except CompileError Compilation × σ :=
  let template := Template.ofText text
  build index name defaults
    (fun d => (d.tell (template.errors.map SyntaxError.diagnostic)).events template.events) state

end Compilation

end Typikon
