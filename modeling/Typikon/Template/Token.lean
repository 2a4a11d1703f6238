import Typikon.Template.Location

/-!
The tokens of a template.
-/

namespace Typikon

inductive LexicalError where
  | unexpected (c : Char)
  | unnamedDirective
  /-- Word characters that begin with a hyphen and are no integer. -/
  | invalidInteger (text : String)
  | unterminatedString
deriving DecidableEq

namespace LexicalError

def message : LexicalError → String
  | .unexpected c => s!"unexpected character '{c}'"
  | .unnamedDirective => "expected a name after '@'"
  | .invalidInteger text => s!"invalid integer '{text}'"
  | .unterminatedString => "unterminated string"

end LexicalError

namespace Token

inductive Kind where
  | string (value : String)
  | integer (value : Int)
  | word (text : String)
  /-- A name after `@`, given without it. -/
  | directive (name : String)
  | equals
  | openBrace
  | closeBrace
  | openParen
  | closeParen
  | error (cause : LexicalError)
deriving DecidableEq

namespace Kind

def describe : Kind → String
  | .string value => s!"string \"{value}\""
  | .integer value => s!"integer {value}"
  | .word text => s!"'{text}'"
  | .directive name => s!"'@{name}'"
  | .equals => "'='"
  | .openBrace => "'\x7b'"
  | .closeBrace => "'\x7d'"
  | .openParen => "'('"
  | .closeParen => "')'"
  | .error cause => cause.message

def describeNext : Option Kind → String
  | some kind => kind.describe
  | none => "end of input"

end Kind

end Token

structure Token where
  kind : Token.Kind
  location : Location
deriving DecidableEq

end Typikon
