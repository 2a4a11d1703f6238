import Typikon.Diagnostic
import Typikon.Draft.Problem

/-!
Findings. Most of what is wrong with a template is certain when it is found. That an entry is
missing is for an index to settle, and its questions wait until the document is done. No step of a
draft depends on an answer (`Draft.settled_bind`), and a text compiles to what it would come to if
each question were put as it comes up (`Compilation.ofText_eq`).
-/

namespace Typikon

inductive Finding where
  /-- A diagnostic from the reading of the template. -/
  | told (diagnostic : Diagnostic)
  | certain (location : Location) (problem : Problem)
  /-- The entry at a location is missing unless the index has it. -/
  | unlessFound (location : Location) (entry : Entry)
deriving DecidableEq

namespace Finding

/-- The diagnostic of a finding, supposing that the entry it is about is missing. -/
def diagnostic : Finding → Diagnostic
  | .told d => d
  | .certain loc problem => ⟨.semantic, loc, problem.message⟩
  | .unlessFound loc entry => ⟨.semantic, loc, (ReferenceProblem.missingEntry entry).message⟩

/-- The entry that a finding asks an index for. -/
def question? : Finding → Option Entry
  | .told _ => none
  | .certain _ _ => none
  | .unlessFound _ entry => some entry

/-- The findings about a reference. A problem with an override stands where the override does. -/
def ofResolution (loc : Location) (mode day : Option Location) (r : Resolution) : List Finding :=
  r.problems.map (fun problem =>
    .certain
      (match problem.part with
        | .text => loc
        | .mode => mode.getD loc
        | .day => day.getD loc)
      (.reference problem)) ++
    (r.entry?.map (.unlessFound loc)).toList

variable {σ : Type}

/-- The diagnostics that remain of findings. The index is asked about one after another, and its
first failure ends the questions. -/
def settle (index : Index σ) : List Finding → σ → Except IndexError (List Diagnostic) × σ
  | [], state => (.ok [], state)
  | finding :: findings, state =>
    match finding.question? with
    | none =>
      let (rest, state) := settle index findings state
      (rest.map (finding.diagnostic :: ·), state)
    | some entry =>
      match index entry state with
      | (.error e, state) => (.error e, state)
      | (.ok found, state) =>
        let (rest, state) := settle index findings state
        (if found then rest else rest.map (finding.diagnostic :: ·), state)

end Finding

end Typikon
