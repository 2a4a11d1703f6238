import Typikon.Proofs.Template.Grammar
import Typikon.Proofs.Template.Rendering
import Typikon.Template.Basic

/-!
Printing templates. Every tree of a template is written as the tokens that the grammar asks for, and
the tokens as a text. Well-formed trees are written in tokens that have a text of their own.
-/

namespace Typikon

/-- The words that begin leaves and libraries in a page block. -/
def IsReserved (word : String) : Prop :=
  word ∈ ["nid", "sid", "rid", "lang"]

instance (word : String) : Decidable (IsReserved word) :=
  inferInstanceAs (Decidable (word ∈ _))

/-! ### Locations -/

def Override.unlocated (override : Override) : Override :=
  { override with location := .start }

def Content.unlocated : Content → Content
  | .relative path overrides => .relative path (overrides.map Override.unlocated)
  | content => content

def Node.Atom.unlocated : Node.Atom → Node.Atom
  | .content c => .content c.unlocated
  | a => a

mutual

/-- A tree with its locations forgotten. -/
def Node.unlocated : Node → Node
  | .atom _ a => .atom .start a.unlocated
  | .group _ g children => .group .start g (Node.unlocatedAll children)

def Node.unlocatedAll : List Node → List Node
  | [] => []
  | node :: nodes => node.unlocated :: Node.unlocatedAll nodes

end

theorem Node.unlocatedAll_eq_map (nodes : List Node) :
    Node.unlocatedAll nodes = nodes.map Node.unlocated := by
  induction nodes with
  | nil => rw [Node.unlocatedAll, List.map_nil]
  | cons node nodes ih => rw [Node.unlocatedAll, ih, List.map_cons]

/-! ### Tokens -/

def pageBlockWord : PageEdge → Parity → String
  | .header, .both => "PageHeader"
  | .header, .even => "PageHeaderEven"
  | .header, .odd => "PageHeaderOdd"
  | .footer, .both => "PageFooter"
  | .footer, .even => "PageFooterEven"
  | .footer, .odd => "PageFooterOdd"

theorem pageBlockWord_of_pageBlockOfWord? {word : String} {edge : PageEdge} {parity : Parity}
    (h : pageBlockOfWord? word = some (edge, parity)) : pageBlockWord edge parity = word := by
  unfold pageBlockOfWord? at h
  split at h <;> cases h <;> rfl

def Override.kinds (override : Override) : List Token.Kind :=
  [.directive override.kind.word, .integer override.value]

def Value.kind : Value → Token.Kind
  | .string s => .string s
  | .integer n => .integer n

namespace Content

def keyword : Content → LeafKeyword
  | .literal _ => .nid
  | .relative _ _ => .rid
  | .absolute _ => .sid
  | .media _ => .media

def overrides : Content → List Override
  | .relative _ overrides => overrides
  | _ => []

def kinds (content : Content) : List Token.Kind :=
  .word content.keyword.word :: .string content.raw :: content.overrides.flatMap Override.kinds

end Content

namespace Node

def Atom.kinds : Atom → List Token.Kind
  | .property name value => [.word name, .equals, value.kind]
  | .directive name => [.directive name]
  | .content c => c.kinds

/-- The tokens of a group before those of its children. -/
def Group.opening : Group → List Token.Kind
  | .template => []
  | .pageBlock edge parity => [.word (pageBlockWord edge parity), .equals]
  | .position slot => [.word slot]
  | .lookup _ => [.directive "Lookup"]
  | .paragraph style _ => [.openBrace, .word style]
  | .span style => [.word style, .openParen]

/-- The tokens of a group after those of its children. -/
def Group.closing : Group → List Token.Kind
  | .lookup (some n) => [.word "lang", .integer n]
  | .paragraph _ true => [.directive "Ver", .closeBrace]
  | .paragraph _ false => [.closeBrace]
  | .span _ => [.closeParen]
  | _ => []

mutual

def kinds : Node → List Token.Kind
  | .atom _ a => a.kinds
  | .group _ g children => g.opening ++ (kindsOfAll children ++ g.closing)

def kindsOfAll : List Node → List Token.Kind
  | [] => []
  | node :: nodes => node.kinds ++ kindsOfAll nodes

end

end Node

theorem Node.kinds_position (loc : Location) (slot : String) (children : List Node) :
    (Node.group loc (.position slot) children).kinds = .word slot :: Node.kindsOfAll children := by
  rw [Node.kinds]
  simp [Node.Group.opening, Node.Group.closing]

theorem Node.kinds_pageBlock (loc : Location) (edge : PageEdge) (parity : Parity)
    (children : List Node) :
    (Node.group loc (.pageBlock edge parity) children).kinds =
      .word (pageBlockWord edge parity) :: .equals :: Node.kindsOfAll children := by
  rw [Node.kinds]
  simp [Node.Group.opening, Node.Group.closing]

def Template.print (items : List Node) : String :=
  String.ofList (Token.Kind.joined (Node.kindsOfAll items))

/-! ### Well-formed trees -/

namespace Node

def Atom.IsWellFormed : Atom → Prop
  | .property name value =>
    IsBareWord name ∧ ¬IsReserved name ∧ pageBlockOfWord? name = none ∧ value.kind.IsRenderable
  | .directive name => IsName name ∧ name ∉ ["Lookup", "Mode", "Day"]
  | .content c => ∀ override ∈ c.overrides, Text.Decimal.IsInt64 override.value

def Group.IsWellFormed : Group → Prop
  | .position slot => IsBareWord slot ∧ ¬IsReserved slot
  | .lookup library => ∀ n ∈ library, Text.Decimal.IsInt64 n
  | .paragraph style _ => IsBareWord style ∧ isParagraphStyle style = true
  | .span style => IsBareWord style ∧ isSpanStyle style = true
  | _ => True

/-- The groups that cannot be empty. -/
def Group.NeedsChildren : Group → Prop
  | .template | .lookup _ => False
  | _ => True

instance : (a : Atom) → Decidable a.IsWellFormed
  | .property _ _ => inferInstanceAs (Decidable (_ ∧ _ ∧ _ ∧ _))
  | .directive _ => inferInstanceAs (Decidable (_ ∧ _))
  | .content c => inferInstanceAs (Decidable (∀ override ∈ c.overrides, _))

instance : (g : Group) → Decidable g.IsWellFormed
  | .position _ | .paragraph _ _ | .span _ => inferInstanceAs (Decidable (_ ∧ _))
  | .lookup library => inferInstanceAs (Decidable (∀ n ∈ library, _))
  | .template | .pageBlock _ _ => inferInstanceAs (Decidable True)

instance : (g : Group) → Decidable g.NeedsChildren
  | .template | .lookup _ => inferInstanceAs (Decidable False)
  | .pageBlock _ _ | .position _ | .paragraph _ _ | .span _ => inferInstanceAs (Decidable True)

mutual

/-- A tree with names, numbers and children that a text can give it. -/
def IsWellFormed : Node → Prop
  | .atom _ a => a.IsWellFormed
  | .group _ g children =>
    g.IsWellFormed ∧ (g.NeedsChildren → children ≠ []) ∧ AreWellFormed children

def AreWellFormed : List Node → Prop
  | [] => True
  | node :: nodes => node.IsWellFormed ∧ AreWellFormed nodes

end

end Node

/-! ### Well-formed trees have tokens with a text -/

theorem LeafKeyword.isBareWord_word (keyword : LeafKeyword) : IsBareWord keyword.word := by
  cases keyword <;> decide

theorem isBareWord_pageBlockWord (edge : PageEdge) (parity : Parity) :
    IsBareWord (pageBlockWord edge parity) := by
  cases edge <;> cases parity <;> decide

theorem OverrideKind.isName_word (kind : OverrideKind) : IsName kind.word := by
  cases kind <;> decide

namespace Node

open Token.Kind (IsRenderable)

theorem Atom.IsWellFormed.isRenderable {a : Atom} (h : a.IsWellFormed) :
    ∀ kind ∈ a.kinds, kind.IsRenderable := by
  cases a with
  | property name value =>
    obtain ⟨hname, -, -, hvalue⟩ := h
    intro kind hmem
    simp only [Atom.kinds, List.mem_cons, List.not_mem_nil, or_false] at hmem
    rcases hmem with rfl | rfl | rfl
    · exact hname
    · trivial
    · exact hvalue
  | directive name =>
    obtain ⟨hname, -⟩ := h
    simp [Atom.kinds, IsRenderable, hname]
  | content c =>
    intro kind hmem
    simp only [Atom.kinds, Content.kinds, List.mem_cons, List.mem_flatMap, Override.kinds,
      List.not_mem_nil, or_false] at hmem
    rcases hmem with rfl | rfl | ⟨override, hoverride, rfl | rfl⟩
    · exact c.keyword.isBareWord_word
    · trivial
    · exact override.kind.isName_word
    · exact h override hoverride

theorem Group.IsWellFormed.isRenderable_opening {g : Group} (h : g.IsWellFormed) :
    ∀ kind ∈ g.opening, kind.IsRenderable := by
  cases g with
  | template => simp [Group.opening]
  | pageBlock edge parity => simp [Group.opening, IsRenderable, isBareWord_pageBlockWord]
  | position slot => simp [Group.opening, IsRenderable, h.1]
  | lookup library =>
    have hname : IsName "Lookup" := by decide
    simp [Group.opening, IsRenderable, hname]
  | paragraph style version => simp [Group.opening, IsRenderable, h.1]
  | span style => simp [Group.opening, IsRenderable, h.1]

theorem Group.IsWellFormed.isRenderable_closing {g : Group} (h : g.IsWellFormed) :
    ∀ kind ∈ g.closing, kind.IsRenderable := by
  cases g with
  | lookup library =>
    cases library with
    | none => simp [Group.closing]
    | some n =>
      have hword : IsBareWord "lang" := by decide
      simp [Group.closing, IsRenderable, hword, h n rfl]
  | paragraph style version =>
    have hname : IsName "Ver" := by decide
    cases version <;> simp [Group.closing, IsRenderable, hname]
  | span style => simp [Group.closing, IsRenderable]
  | _ => simp [Group.closing]

mutual

theorem IsWellFormed.isRenderable :
    (node : Node) → node.IsWellFormed → ∀ kind ∈ node.kinds, kind.IsRenderable
  | .atom loc a, h => by
    rw [IsWellFormed] at h
    rw [kinds]
    exact h.isRenderable
  | .group loc g children, h => by
    rw [IsWellFormed] at h
    obtain ⟨hg, -, hchildren⟩ := h
    intro kind hmem
    rw [kinds, List.mem_append, List.mem_append] at hmem
    rcases hmem with hmem | hmem | hmem
    · exact hg.isRenderable_opening kind hmem
    · exact AreWellFormed.isRenderable children hchildren kind hmem
    · exact hg.isRenderable_closing kind hmem

theorem AreWellFormed.isRenderable :
    (nodes : List Node) → AreWellFormed nodes → ∀ kind ∈ kindsOfAll nodes, kind.IsRenderable
  | [], _ => by
    rw [kindsOfAll]
    intro kind hmem
    cases hmem
  | node :: nodes, h => by
    rw [AreWellFormed] at h
    intro kind hmem
    rw [kindsOfAll, List.mem_append] at hmem
    rcases hmem with hmem | hmem
    · exact IsWellFormed.isRenderable node h.1 kind hmem
    · exact AreWellFormed.isRenderable nodes h.2 kind hmem

end

end Node

namespace Template

/-- Items that nest as the grammar of templates allows and are well formed. -/
structure IsWellFormed (items : List Node) : Prop where
  nestIn : Node.NestIn .template items
  areWellFormed : Node.AreWellFormed items

theorem map_kind_ofText_print {items : List Node} (h : Node.AreWellFormed items) :
    (Scan.ofText (print items)).tokens.map Token.kind = Node.kindsOfAll items := by
  rw [Scan.ofText, print, String.toList_ofList]
  exact Scan.map_kind_ofChars_joined .start (Node.AreWellFormed.isRenderable items h)

end Template

end Typikon
