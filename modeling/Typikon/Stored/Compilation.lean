import Typikon.Compilation
import Typikon.Stored.Document

/-!
The stored form of compilations.
-/

namespace Typikon

open Json

namespace TemplateError

def fieldNames : List String := ["template_id", "line", "column", "message", "kind"]

def toJson (e : TemplateError) : Json :=
  .record fieldNames
    [some (.string e.templateId), some (.number e.location.line), some (.number e.location.column),
      some (.string e.message), some (DiagnosticKind.vocabulary.toJson e.kind)]

def ofJson? : Json → Option TemplateError :=
  readRecord? fieldNames do
    return {
      templateId := ← required string?
      location := ⟨← required unsigned64?, ← required unsigned64?⟩
      message := ← required string?
      kind := ← required DiagnosticKind.vocabulary.ofJson? }

end TemplateError

namespace Compilation

def fieldNames : List String := ["template", "errors"]

def toJson (c : Compilation) : Json :=
  .record fieldNames
    [some c.document.toJson, some (.array (c.errors.map TemplateError.toJson))]

def ofJson? : Json → Option Compilation :=
  readRecord? fieldNames do
    return {
      document := ← required Document.ofJson?
      errors := ← required (listOf? TemplateError.ofJson?) }

end Compilation

end Typikon
