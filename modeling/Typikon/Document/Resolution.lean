import Typikon.Calendar.Topic
import Typikon.Document.Reference
import Typikon.Index.Basic
import Typikon.Template.Node

/-!
Resolution of references. What can be wrong with a reference is known from its text and the day
alone, up to one question: whether the library has the entry that it comes to.
-/

namespace Typikon

inductive ReferencePart where
  | text
  | mode
  | day
deriving DecidableEq

inductive ReferenceProblem where
  | emptyLiteral
  | path (cause : PathError)
  | modeOutOfRange (mode : Int)
  | dayOutOfRange (day : Int)
  | overridesOutsideOctoechos
  | missingEntry (entry : Entry)
deriving DecidableEq

namespace ReferenceProblem

def message : ReferenceProblem → String
  | .emptyLiteral => "nid value cannot be empty"
  | .path cause => cause.message
  | .modeOutOfRange mode => s!"invalid mode override {mode}, expected value between 1 and 8"
  | .dayOutOfRange day => s!"invalid day override {day}, expected value between 1 and 7"
  | .overridesOutsideOctoechos =>
    "rid directives (@Mode or @Day) may only be used for topics starting with 'oc' " ++
      "(i.e. Octoechos)"
  | .missingEntry entry => s!"not found: topic/key '{entry.path}' does not exist"

def part : ReferenceProblem → ReferencePart
  | .modeOutOfRange _ => .mode
  | .dayOutOfRange _ => .day
  | _ => .text

end ReferenceProblem

/-- A reference as it goes into a document, the problems with it, and the entry that the library has
to have, if it comes to one. -/
structure Resolution where
  reference : Reference
  problems : List ReferenceProblem
  entry? : Option Entry
deriving DecidableEq

namespace Resolution

def literal (text : String) : Resolution :=
  ⟨.literal text, if text = "" then [.emptyLiteral] else [], none⟩

def absolute (path : String) : Resolution :=
  match Entry.ofPath path with
  | .ok entry => ⟨.absolute path, [], some entry⟩
  | .error cause => ⟨.absolute path, [.path cause], none⟩

/-- The given number if it is from 1 to a limit. -/
def withinLimit? (limit : Nat) (n : Int) : Option Nat :=
  if 1 ≤ n ∧ n ≤ limit then some n.toNat else none

/-- The problem with a number that is not from 1 to a limit. -/
def beyondLimit (limit : Nat) (problem : Int → ReferenceProblem) (n? : Option Int) :
    List ReferenceProblem :=
  ((n?.filter fun n => withinLimit? limit n = none).map problem).toList

/-- Resolves a path for a day. A mode or day of the week that is given in place of the day's own
counts only if it is in range. The Octoechos alone takes them, even those out of range. -/
def relative (path : String) (mode day : Option Int) (d : LiturgicalDay) : Resolution :=
  match Entry.ofPath path with
  | .error cause => ⟨.relative path path none none, [.path cause], none⟩
  | .ok entry =>
    let problems := beyondLimit 8 .modeOutOfRange mode ++ beyondLimit 7 .dayOutOfRange day
    let mode? := mode.bind (withinLimit? 8)
    let day? := day.bind (withinLimit? 7)
    if (mode.isSome ∨ day.isSome) ∧ ¬IsOctoechosTopic entry.topic then
      ⟨.relative path path mode? day?, problems ++ [.overridesOutsideOctoechos], none⟩
    else
      let resolved := (Entry.mk (d.topic entry.topic mode? day?) entry.key).path
      let found := absolute resolved
      ⟨.relative path resolved mode? day?, problems ++ found.problems, found.entry?⟩

def ofContent (d : LiturgicalDay) : Content → Resolution
  | .literal text => literal text
  | .relative path overrides =>
    relative path ((Override.last? overrides .mode).map Override.value)
      ((Override.last? overrides .day).map Override.value) d
  | .absolute path => absolute path
  | .media path => absolute path

/-- All problems with a reference, as far as an index answers. -/
def check {σ : Type} (index : Index σ) (r : Resolution) (state : σ) :
    Except IndexError (List ReferenceProblem) × σ :=
  match r.entry? with
  | none => (.ok r.problems, state)
  | some entry =>
    match index entry state with
    | (.ok true, state) => (.ok r.problems, state)
    | (.ok false, state) => (.ok (r.problems ++ [.missingEntry entry]), state)
    | (.error e, state) => (.error e, state)

end Resolution

end Typikon
