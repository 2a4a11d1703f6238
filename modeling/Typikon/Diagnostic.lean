import Typikon.Template.SyntaxError
import Typikon.Text.Vocabulary

/-!
Diagnostics. What is wrong with a template is collected while it is read and built, and told at the
end, in the order of the source and under the template's final identifier.
-/

namespace Typikon

/-- Whether the text of a template or its meaning is at fault. -/
inductive DiagnosticKind where
  | syntactic
  | semantic
deriving DecidableEq

namespace DiagnosticKind

def word : DiagnosticKind → String
  | .syntactic => "syntax"
  | .semantic => "semantic"

def vocabulary : Text.Vocabulary DiagnosticKind :=
  ⟨"diagnostic kind", [.syntactic, .semantic], word⟩

end DiagnosticKind

structure Diagnostic where
  kind : DiagnosticKind
  location : Location
  message : String
deriving DecidableEq

/-- A diagnostic as it is told, under the identifier of its template. -/
structure TemplateError where
  templateId : String
  location : Location
  message : String
  kind : DiagnosticKind
deriving DecidableEq

namespace TemplateError

def compact (e : TemplateError) : String :=
  s!"{e.location.line}:{e.location.column}: {e.message}"

def verbose (e : TemplateError) : String :=
  s!"template {e.templateId} Line {e.location.line} Column {e.location.column}: {e.message}"

end TemplateError

/-- A syntax error is a diagnostic of its own kind. -/
def SyntaxError.diagnostic (e : SyntaxError) : Diagnostic :=
  ⟨.syntactic, e.location, e.cause.message⟩

namespace Diagnostic

def tell (id : String) (d : Diagnostic) : TemplateError :=
  ⟨id, d.location, d.message, d.kind⟩

/-- The diagnostics in the order of their locations. Those at one location keep their order. -/
def sort (ds : List Diagnostic) : List Diagnostic :=
  ds.mergeSort fun a b => a.location.le b.location

def tellAll (id : String) (ds : List Diagnostic) : List TemplateError :=
  (sort ds).map (tell id)

end Diagnostic

end Typikon
