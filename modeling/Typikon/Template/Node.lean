import Typikon.Document.Keyword
import Typikon.Template.Location

/-!
The tree of a template. A node stands where its first token does. The nodes that can have children
are the groups; all others are atoms.
-/

namespace Typikon

inductive Value where
  | string (s : String)
  | integer (n : Int)
deriving DecidableEq

namespace Value

def text : Value → String
  | .string s => s!"\"{s}\""
  | .integer n => toString n

end Value

inductive OverrideKind where
  | mode
  | day
deriving DecidableEq

/-- A mode or day of the week given at a reference in place of the day's own. -/
structure Override where
  kind : OverrideKind
  value : Int
  location : Location
deriving DecidableEq

/-- The content of a leaf: literal text, or the path of a library entry. -/
inductive Content where
  | literal (text : String)
  /-- A path that is resolved for the liturgical day. -/
  | relative (path : String) (overrides : List Override)
  | absolute (path : String)
  | media (path : String)
deriving DecidableEq

namespace Content

/-- The text or path as the template has it. -/
def raw : Content → String
  | .literal text => text
  | .relative path _ => path
  | .absolute path => path
  | .media path => path

end Content

/-- The override of a kind that takes effect, which is the last. -/
def Override.last? (overrides : List Override) (kind : OverrideKind) : Option Override :=
  overrides.reverse.find? fun override => override.kind = kind

namespace Node

inductive Atom where
  | property (name : String) (value : Value)
  | directive (name : String)
  | content (content : Content)
deriving DecidableEq

inductive Group where
  | template
  | pageBlock (edge : PageEdge) (parity : Parity)
  | position (slot : String)
  | lookup (library : Option Int)
  | paragraph (style : String) (version : Bool)
  | span (style : String)
deriving DecidableEq

/-- What a node is, apart from its location and its children. -/
inductive Head where
  | atom (atom : Atom)
  | group (group : Group)
deriving DecidableEq

end Node

inductive Node where
  | atom (location : Location) (atom : Node.Atom)
  | group (location : Location) (group : Node.Group) (children : List Node)

namespace Node

def location : Node → Location
  | .atom loc _ => loc
  | .group loc _ _ => loc

def head : Node → Head
  | .atom _ a => .atom a
  | .group _ g _ => .group g

def children : Node → List Node
  | .atom _ _ => []
  | .group _ _ children => children

end Node

end Typikon
