import Typikon.Calendar.CivilDate
import Typikon.Document.Keyword
import Typikon.Document.Reference

/-!
Page headers and footers. Each has three slots of insertions, and is for all pages or for the even
or odd ones.
-/

namespace Typikon

/-- References to one of the three libraries that a page shows side by side. -/
structure Lookup where
  references : List Reference
  library : Nat
deriving DecidableEq

/-- Something that is put into a slot, with the style it is set in. -/
inductive Insertion where
  | date (style : String) (date : Option CivilDate)
  | pageNumber (style : String)
  | literal (style text : String)
  | lookup (style : String) (lookup : Lookup)
deriving DecidableEq

namespace Insertion

def style : Insertion → String
  | .date style _ => style
  | .pageNumber style => style
  | .literal style _ => style
  | .lookup style _ => style

def dateStyle : String := "span.date"

def pageNumberStyle : String := "span.pageNbr"

def literalStyle : String := "span.literal"

def lookupStyle : String := "span.lookup"

/-- An inserted date is the given one; all else stays. -/
def withDate (today : CivilDate) : Insertion → Insertion
  | .date style _ => .date style (some today)
  | insertion => insertion

end Insertion

structure PageBlock where
  edge : PageEdge
  parity : Parity
  left : List Insertion
  center : List Insertion
  right : List Insertion
deriving DecidableEq

namespace PageBlock

def empty (edge : PageEdge) (parity : Parity) : PageBlock :=
  ⟨edge, parity, [], [], []⟩

def slot (b : PageBlock) : Slot → List Insertion
  | .left => b.left
  | .center => b.center
  | .right => b.right

def insert (b : PageBlock) (slot : Slot) (insertion : Insertion) : PageBlock :=
  match slot with
  | .left => { b with left := b.left ++ [insertion] }
  | .center => { b with center := b.center ++ [insertion] }
  | .right => { b with right := b.right ++ [insertion] }

def withDate (today : CivilDate) (b : PageBlock) : PageBlock :=
  { b with
    left := b.left.map (Insertion.withDate today)
    center := b.center.map (Insertion.withDate today)
    right := b.right.map (Insertion.withDate today) }

/-- The block that a page has. A block for the very parity comes before one for all pages, and a
later block before an earlier one. -/
def choose (blocks : List PageBlock) (parity : Parity) : Option PageBlock :=
  let latest := fun p => blocks.reverse.find? fun b => b.parity = p
  (latest parity).or (latest .both)

end PageBlock

structure PageLayout where
  headers : List PageBlock
  footers : List PageBlock
deriving DecidableEq

namespace PageLayout

def empty : PageLayout := ⟨[], []⟩

def add (l : PageLayout) (b : PageBlock) : PageLayout :=
  match b.edge with
  | .header => { l with headers := l.headers ++ [b] }
  | .footer => { l with footers := l.footers ++ [b] }

def headerFor (l : PageLayout) (parity : Parity) : Option PageBlock :=
  PageBlock.choose l.headers parity

def footerFor (l : PageLayout) (parity : Parity) : Option PageBlock :=
  PageBlock.choose l.footers parity

def withDate (today : CivilDate) (l : PageLayout) : PageLayout :=
  ⟨l.headers.map (PageBlock.withDate today), l.footers.map (PageBlock.withDate today)⟩

end PageLayout

end Typikon
