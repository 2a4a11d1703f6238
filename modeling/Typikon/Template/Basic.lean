import Typikon.Template.Body
import Typikon.Template.Event
import Typikon.Template.PageBlock
import Typikon.Template.Scan

/-!
Templates. A template is a list of items: properties, page headers and footers, and the paragraphs
of its bodies. Every text is read as a template; what fits no item is reported and passed over up to
the next item.
-/

namespace Typikon

/-- A template as read from a text: its items, and the syntax errors in the order in which they were
found. -/
structure Template where
  items : List Node
  errors : List SyntaxError

namespace Reading

/-- The property whose name and equals sign have been read, unless its value is missing. -/
def property (name : String) (loc : Location) (reports : Reports) :
    List Token → Reading (Option Node)
  | ⟨.string s, _⟩ :: rest => ⟨some (.atom loc (.property name (.string s))), reports, rest⟩
  | ⟨.integer n, _⟩ :: rest => ⟨some (.atom loc (.property name (.integer n))), reports, rest⟩
  | tokens => ⟨none, reports.expected .propertyValue tokens, tokens⟩

theorem length_rest_property_le (name : String) (loc : Location) (reports : Reports)
    (tokens : List Token) : (property name loc reports tokens).rest.length ≤ tokens.length := by
  unfold property
  split <;> simp

/-- The tokens from the first one that can begin an item. -/
def skipToItem : List Token → List Token
  | [] => []
  | token :: rest =>
    if token.kind = .openBrace ∨ startsAssignment (token :: rest) then token :: rest
    else skipToItem rest

theorem length_skipToItem_le (tokens : List Token) :
    (skipToItem tokens).length ≤ tokens.length := by
  fun_induction skipToItem tokens with
  | case1 | case2 => simp
  | case3 => grind

def items (reports : Reports) : List Token → Reading (List Node)
  | [] => ⟨[], reports, []⟩
  | ⟨.openBrace, _⟩ :: rest =>
    let body := body reports rest
    have := length_rest_body_le reports rest
    let tail := items body.reports body.rest
    { tail with value := body.value ++ tail.value }
  | ⟨.word word, loc⟩ :: ⟨.equals, _⟩ :: rest =>
    match pageBlockOfWord? word with
    | some (edge, parity) =>
      let block := pageBlock edge parity loc reports rest
      have := Nat.le_succ_of_le (length_rest_pageBlock_le edge parity loc reports rest)
      let tail := items block.reports block.rest
      { tail with value := block.value :: tail.value }
    | none =>
      let property := property word loc reports rest
      have := Nat.le_succ_of_le (length_rest_property_le word loc reports rest)
      let tail := items property.reports property.rest
      { tail with value := property.value.toList ++ tail.value }
  | token :: rest =>
    have := length_skipToItem_le rest
    items (reports.expected .item (token :: rest)) (skipToItem rest)
termination_by tokens => tokens.length
decreasing_by all_goals exact Nat.lt_succ_of_le this

end Reading

namespace Template

def ofText (text : String) : Template :=
  let scan := Scan.ofText text
  let reading := Reading.items (Reports.none scan.stop) scan.tokens
  ⟨reading.value, reading.reports.errors.reverse⟩

def events (t : Template) : List Event :=
  Node.eventsOfAll t.items

end Template

end Typikon
