import Typikon.Template.SyntaxError

/-!
Reading tokens: what a production of the grammar makes of the tokens before it, and the syntax
errors found on the way. A token is reported as unexpected at most once, however many productions it
fits none of.
-/

namespace Typikon

/-- The syntax errors found so far. -/
structure Reports where
  stop : Location
  last : Option Location
  /-- The errors, newest first. -/
  errors : List SyntaxError

namespace Reports

def none (stop : Location) : Reports :=
  ⟨stop, .none, []⟩

def nextLocation (reports : Reports) (tokens : List Token) : Location :=
  (tokens.head?.map Token.location).getD reports.stop

def add (reports : Reports) (cause : SyntaxError.Cause) (loc : Location) : Reports :=
  { reports with errors := ⟨cause, loc⟩ :: reports.errors }

/-- Reports that something was to stand before the tokens and does not. -/
def expected (reports : Reports) (what : Expectation) (tokens : List Token) : Reports :=
  let loc := reports.nextLocation tokens
  if reports.last = some loc then reports
  else { reports.add (.ofNext what (tokens.head?.map Token.kind)) loc with last := some loc }

end Reports

/-- What was read, the reports after it, and the tokens that are left. -/
structure Reading (α : Type) where
  value : α
  reports : Reports
  rest : List Token

end Typikon
