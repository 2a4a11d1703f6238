import Typikon.Template.Token

/-!
Syntax errors of templates.
-/

namespace Typikon

/-- What the grammar asks for at a token that does not fit. -/
inductive Expectation where
  | item
  | propertyValue
  | slot
  | slotItem (slot : String)
  | libraryNumber
  | bodyEnd
  | paragraph
  | paragraphContent (style : String)
  | nestedContent (style : String)
  | nestedEnd (opened : Location)
  | string (keyword : String)
  | integer
deriving DecidableEq

namespace Expectation

def text : Expectation → String
  | .item => "a property, page header or footer, or '\x7b'"
  | .propertyValue => "a string or integer value"
  | .slot => "a header/footer slot position"
  | .slotItem name => s!"@Date, @PageNbr, @Lookup, or nid after slot '{name}'"
  | .libraryNumber => "a library number after 'lang'"
  | .bodyEnd => "'\x7d'"
  | .paragraph => "a paragraph style such as 'p.hymn'"
  | .paragraphContent style => s!"content for paragraph '{style}'"
  | .nestedContent style => s!"content inside '(' of '{style}'"
  | .nestedEnd opened => s!"')' to close the '(' at {opened.text}"
  | .string keyword => s!"a string after '{keyword}'"
  | .integer => "an integer"

end Expectation

namespace SyntaxError

inductive Cause where
  | lexical (cause : LexicalError)
  | unexpected (what : Expectation) (found : Option Token.Kind)
  | emptySpan (style : String)
deriving DecidableEq

namespace Cause

/-- What is wrong when the grammar asks for something and the next token is another. -/
def ofNext (what : Expectation) : Option Token.Kind → Cause
  | some (.error cause) => .lexical cause
  | next => .unexpected what next

def message : Cause → String
  | .lexical cause => cause.message
  | .unexpected what found => s!"expected {what.text}, found {Token.Kind.describeNext found}"
  | .emptySpan style => s!"span '{style}' has no content"

end Cause

end SyntaxError

structure SyntaxError where
  cause : SyntaxError.Cause
  location : Location
deriving DecidableEq

end Typikon
