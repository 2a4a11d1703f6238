import Typikon.Template.Leaf

/-!
Headers and footers of templates. A page block has positions, a position a slot and what stands in
it: directives, literal text and lookups of references.
-/

namespace Typikon

def pageBlockOfWord? : String → Option (PageEdge × Parity)
  | "PageHeader" => some (.header, .both)
  | "PageHeaderEven" => some (.header, .even)
  | "PageHeaderOdd" => some (.header, .odd)
  | "PageFooter" => some (.footer, .both)
  | "PageFooterEven" => some (.footer, .even)
  | "PageFooterOdd" => some (.footer, .odd)
  | _ => none

/-- Whether tokens begin with a word and an equals sign, as a property or page block does. -/
def startsAssignment : List Token → Bool
  | ⟨.word _, _⟩ :: ⟨.equals, _⟩ :: _ => true
  | _ => false

namespace Reading

def references (reports : Reports) : List Token → Reading (List Node)
  | [] => ⟨[], reports, []⟩
  | token :: rest =>
    match token.kind with
    | .word word =>
      match LeafKeyword.ofWord? word with
      | some keyword =>
        if keyword = .sid ∨ keyword = .rid then
          let leaf := leaf keyword token.location reports rest
          have := length_rest_leaf_le keyword token.location reports rest
          let tail := references leaf.reports leaf.rest
          { tail with value := leaf.value.toList ++ tail.value }
        else ⟨[], reports, token :: rest⟩
      | none => ⟨[], reports, token :: rest⟩
    | _ => ⟨[], reports, token :: rest⟩
termination_by tokens => tokens.length
decreasing_by exact Nat.lt_succ_of_le this

def library (reports : Reports) : List Token → Reading (Option Int)
  | ⟨.word "lang", _⟩ :: ⟨.integer n, _⟩ :: rest => ⟨some n, reports, rest⟩
  | ⟨.word "lang", _⟩ :: rest => ⟨none, reports.expected .libraryNumber rest, rest⟩
  | tokens => ⟨none, reports, tokens⟩

/-- The lookup whose directive has been read. -/
def lookup (loc : Location) (reports : Reports) (tokens : List Token) : Reading Node :=
  let references := references reports tokens
  let library := library references.reports references.rest
  { library with value := .group loc (.lookup library.value) references.value }

theorem length_rest_references_le (reports : Reports) (tokens : List Token) :
    (references reports tokens).rest.length ≤ tokens.length := by
  fun_induction references reports tokens with
  | case1 | case3 | case4 | case5 => simp
  | case2 => grind

theorem length_rest_library_le (reports : Reports) (tokens : List Token) :
    (library reports tokens).rest.length ≤ tokens.length := by
  fun_cases library reports tokens <;> grind

theorem length_rest_lookup_le (loc : Location) (reports : Reports) (tokens : List Token) :
    (lookup loc reports tokens).rest.length ≤ tokens.length :=
  Nat.le_trans (length_rest_library_le _ _) (length_rest_references_le reports tokens)

def slotItems (reports : Reports) : List Token → Reading (List Node)
  | [] => ⟨[], reports, []⟩
  | token :: rest =>
    match token.kind with
    | .directive name =>
      if name = "Lookup" then
        let lookup := lookup token.location reports rest
        have := length_rest_lookup_le token.location reports rest
        let tail := slotItems lookup.reports lookup.rest
        { tail with value := lookup.value :: tail.value }
      else
        have := Nat.le_refl rest.length
        let tail := slotItems reports rest
        { tail with value := .atom token.location (.directive name) :: tail.value }
    | .word word =>
      if word = LeafKeyword.nid.word then
        let leaf := leaf .nid token.location reports rest
        have := length_rest_leaf_le .nid token.location reports rest
        let tail := slotItems leaf.reports leaf.rest
        { tail with value := leaf.value.toList ++ tail.value }
      else ⟨[], reports, token :: rest⟩
    | _ => ⟨[], reports, token :: rest⟩
termination_by tokens => tokens.length
decreasing_by all_goals exact Nat.lt_succ_of_le this

theorem length_rest_slotItems_le (reports : Reports) (tokens : List Token) :
    (slotItems reports tokens).rest.length ≤ tokens.length := by
  fun_induction slotItems reports tokens with
  | case1 | case5 | case6 => simp
  | case2 | case3 | case4 => grind

/-- The position whose slot has been read. -/
def position (slot : String) (loc : Location) (reports : Reports) (tokens : List Token) :
    Reading Node :=
  let items := slotItems reports tokens
  { items with
    value := .group loc (.position slot) items.value
    reports :=
      if items.value.isEmpty then items.reports.expected (.slotItem slot) items.rest
      else items.reports }

theorem length_rest_position_le (slot : String) (loc : Location) (reports : Reports)
    (tokens : List Token) : (position slot loc reports tokens).rest.length ≤ tokens.length :=
  length_rest_slotItems_le reports tokens

/-- The positions of a page block. A word before an equals sign is the next item of the template. -/
def positions (reports : Reports) : List Token → Reading (List Node)
  | [] => ⟨[], reports, []⟩
  | token :: rest =>
    match token.kind with
    | .word slot =>
      if startsAssignment (token :: rest) then ⟨[], reports, token :: rest⟩
      else
        let position := position slot token.location reports rest
        have := length_rest_position_le slot token.location reports rest
        let tail := positions position.reports position.rest
        { tail with value := position.value :: tail.value }
    | _ => ⟨[], reports, token :: rest⟩
termination_by tokens => tokens.length
decreasing_by exact Nat.lt_succ_of_le this

theorem length_rest_positions_le (reports : Reports) (tokens : List Token) :
    (positions reports tokens).rest.length ≤ tokens.length := by
  fun_induction positions reports tokens with
  | case1 | case2 | case4 => simp
  | case3 => grind

/-- The page block whose word and equals sign have been read. -/
def pageBlock (edge : PageEdge) (parity : Parity) (loc : Location) (reports : Reports)
    (tokens : List Token) : Reading Node :=
  let positions := positions reports tokens
  { positions with
    value := .group loc (.pageBlock edge parity) positions.value
    reports :=
      if positions.value.isEmpty then positions.reports.expected .slot positions.rest
      else positions.reports }

theorem length_rest_pageBlock_le (edge : PageEdge) (parity : Parity) (loc : Location)
    (reports : Reports) (tokens : List Token) :
    (pageBlock edge parity loc reports tokens).rest.length ≤ tokens.length :=
  length_rest_positions_le reports tokens

end Reading

end Typikon
