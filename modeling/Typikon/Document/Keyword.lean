import Typikon.Text.Vocabulary

/-!
The keywords of templates and documents.
-/

namespace Typikon

inductive TemplateType where
  | block
  | book
  | service
deriving DecidableEq

inductive Status where
  | na
  | draft
  | review
  | final
deriving DecidableEq

/-- The pages that a header or footer is for. -/
inductive Parity where
  | both
  | even
  | odd
deriving DecidableEq

inductive Slot where
  | left
  | center
  | right
deriving DecidableEq

inductive PageEdge where
  | header
  | footer
deriving DecidableEq

namespace TemplateType

def word : TemplateType → String
  | .block => "block"
  | .book => "book"
  | .service => "service"

def vocabulary : Text.Vocabulary TemplateType :=
  ⟨"template Type", [.block, .book, .service], word⟩

end TemplateType

namespace Status

def word : Status → String
  | .na => "na"
  | .draft => "draft"
  | .review => "review"
  | .final => "final"

def vocabulary : Text.Vocabulary Status :=
  ⟨"template Status", [.na, .draft, .review, .final], word⟩

end Status

namespace Parity

def word : Parity → String
  | .both => "both"
  | .even => "even"
  | .odd => "odd"

def vocabulary : Text.Vocabulary Parity :=
  ⟨"page parity", [.both, .even, .odd], word⟩

end Parity

namespace Slot

def word : Slot → String
  | .left => "left"
  | .center => "center"
  | .right => "right"

def vocabulary : Text.Vocabulary Slot :=
  ⟨"header/footer slot position", [.left, .center, .right], word⟩

end Slot

namespace PageEdge

def word : PageEdge → String
  | .header => "header"
  | .footer => "footer"

def vocabulary : Text.Vocabulary PageEdge :=
  ⟨"page block", [.header, .footer], word⟩

end PageEdge

end Typikon
