import Typikon.Proofs.Template.Covering
import Typikon.Proofs.Template.Preorder
import Typikon.Proofs.Template.Taking
import Typikon.Proofs.Text.OneLine

/-!
What templates and their syntax errors quote. Whatever is wrong with a text, the nodes that are read
from it stand for tokens of the text, in the same order, and its syntax errors quote none but tokens
of the text. A token other than a string stands on one line, so strings alone can bring a newline
into a node or a message.
-/

namespace Typikon

open Text (IsLine)
open Token.Kind (significant significant_cons significant_cons_of_punctuation)

/-! ### Readings quote tokens -/

namespace Takes

variable {kinds : List Token.Kind} {reports later : Reports} {tokens rest : List Token}

theorem suffix (h : Takes kinds reports tokens later rest) : rest <:+ tokens := by
  induction h with
  | refl => exact List.suffix_rfl
  | trans _ _ ih ih' => exact ih'.trans ih
  | cons _ _ _ ih => exact ih.trans (List.suffix_cons _ _)
  | punctuation _ _ _ ih => exact ih.trans (List.suffix_cons _ _)
  | expected _ _ _ _ hnext ih => exact hnext.trans ih
  | add _ _ _ _ ih => exact ih

theorem sublist (h : Takes kinds reports tokens later rest) :
    (kinds ++ significant (rest.map Token.kind)).Sublist (significant (tokens.map Token.kind)) := by
  induction h with
  | refl => exact List.Sublist.refl _
  | trans _ _ ih ih' =>
    rw [List.append_assoc]
    exact (ih'.append_left _).trans ih
  | cons hkind _ _ ih =>
    rw [List.map_cons, significant_cons hkind]
    exact ih.cons_cons _
  | punctuation hkind _ _ ih =>
    rw [List.map_cons, significant_cons_of_punctuation hkind]
    exact ih
  | expected _ _ _ _ hnext ih =>
    exact (((hnext.sublist.map _).filter _).append_left _).trans ih
  | add _ _ _ _ ih => exact ih

theorem exists_errors_eq_append (h : Takes kinds reports tokens later rest) :
    ∃ new, later.errors = new ++ reports.errors ∧
      ∀ e ∈ new, e.cause.quoted ⊆ tokens.map Token.kind := by
  induction h with
  | refl => exact ⟨[], rfl, fun e he => absurd he List.not_mem_nil⟩
  | trans h _ ih ih' =>
    obtain ⟨new, hnew, hquoted⟩ := ih
    obtain ⟨new', hnew', hquoted'⟩ := ih'
    refine ⟨new' ++ new, by rw [hnew', hnew, List.append_assoc], ?_⟩
    rw [List.forall_mem_append]
    have hleft := List.map_subset Token.kind h.suffix.subset
    exact ⟨fun e he => List.Subset.trans (hquoted' e he) hleft, hquoted⟩
  | cons _ _ _ ih | punctuation _ _ _ ih =>
    obtain ⟨new, hnew, hquoted⟩ := ih
    exact ⟨new, hnew, fun e he => List.Subset.trans (hquoted e he) (List.subset_cons_self _ _)⟩
  | @expected _ _ later tokens rest found _ h what hwhat hfound _ ih =>
    obtain ⟨new, hnew, hquoted⟩ := ih
    unfold Reports.expected
    dsimp only
    split
    · exact ⟨new, hnew, hquoted⟩
    · refine ⟨_ :: new, congrArg (_ :: ·) hnew, ?_⟩
      rw [List.forall_mem_cons]
      refine ⟨?_, hquoted⟩
      intro kind hkind
      rcases SyntaxError.Cause.mem_quoted_ofNext hkind with hmem | hnext
      · exact hwhat hmem
      · have hmem : kind ∈ found.map Token.kind := by
          rw [← List.head?_map] at hnext
          exact List.mem_of_head? hnext
        exact List.map_subset _ (hfound.trans h.suffix).subset hmem
  | add _ _ hcause _ ih =>
    obtain ⟨new, hnew, hquoted⟩ := ih
    refine ⟨_ :: new, congrArg (_ :: ·) hnew, ?_⟩
    rw [List.forall_mem_cons]
    exact ⟨hcause, hquoted⟩

end Takes

namespace Template

theorem takes_ofText (text : String) :
    ∃ later, (ofText text).errors = later.errors.reverse ∧
      Takes (Node.significantOfAll (ofText text).items) (.none (Scan.ofText text).stop)
        (Scan.ofText text).tokens later [] := by
  have hread := Reading.takes_items (.none (Scan.ofText text).stop) (Scan.ofText text).tokens
  rw [Reading.rest_items] at hread
  exact ⟨_, rfl, hread⟩

/-- A template says what its text says and nothing else, in the same order. -/
theorem significant_items_sublist (text : String) :
    (significant (Node.kindsOfAll (ofText text).items)).Sublist
      (significant ((Scan.ofText text).tokens.map Token.kind)) := by
  obtain ⟨later, -, htakes⟩ := takes_ofText text
  have hsublist := htakes.sublist
  rwa [List.map_nil, Token.Kind.significant_nil, List.append_nil] at hsublist

theorem quoted_subset_of_mem_errors {text : String} {e : SyntaxError}
    (h : e ∈ (ofText text).errors) :
    e.cause.quoted ⊆ (Scan.ofText text).tokens.map Token.kind := by
  obtain ⟨later, herrors, htakes⟩ := takes_ofText text
  obtain ⟨new, hnew, hquoted⟩ := htakes.exists_errors_eq_append
  rw [herrors, List.mem_reverse, hnew] at h
  exact hquoted e (by simpa [Reports.none] using h)

end Template

/-! ### Tokens on one line -/

theorem isLine_of_isName {name : String} (h : IsName name) : IsLine name := by
  intro hmem
  have hchar := List.all_eq_true.mp h.2 '\n' hmem
  cases hchar

theorem LexicalError.IsWritten.isLine_message {cause : LexicalError} {text : List Char}
    (h : cause.IsWritten text) : IsLine cause.message := by
  cases cause with
  | unexpected c =>
    have hc : c ≠ '\n' := by
      rintro rfl
      cases h.2.1
    exact Text.isLine_around (by decide) (Text.isLine_toString_char hc) (by decide)
  | invalidInteger name =>
    exact Text.isLine_around (by decide) (isLine_of_isName h.2.1) (by decide)
  | unnamedDirective | unterminatedString => exact Text.isLine_ofList (by decide)

namespace Token.Kind

def string? : Kind → Option String
  | .string value => some value
  | _ => none

theorem isLine_describe_string {value : String} (h : IsLine value) :
    IsLine (string value).describe :=
  Text.isLine_around (by decide) h (by decide)

theorem isLine_describe_word {name : String} (h : IsLine name) : IsLine (word name).describe :=
  Text.isLine_around (by decide) h (by decide)

theorem isLine_describe_directive {name : String} (h : IsLine name) :
    IsLine (directive name).describe :=
  Text.isLine_around (by decide) h (by decide)

theorem isLine_of_describe {before after name : String} (h : IsLine (before ++ name ++ after)) :
    IsLine name :=
  ((Text.isLine_append _ _).mp ((Text.isLine_append _ _).mp h).1).2

/-- A token stands on one line unless it is a string with a newline. -/
theorem IsWritten.isLine_describe {kind : Kind} {text : List Char} (h : kind.IsWritten text)
    (hstring : ∀ value ∈ kind.string?, IsLine value) : IsLine kind.describe := by
  cases kind with
  | string value => exact isLine_describe_string (hstring value rfl)
  | integer n => exact (Text.isLine_ofList (by decide)).append (Text.isLine_repr_int n)
  | word name => exact isLine_describe_word (isLine_of_isName h.2.isName)
  | directive name => exact isLine_describe_directive (isLine_of_isName h.2)
  | error cause => exact LexicalError.IsWritten.isLine_message h
  | equals | openBrace | closeBrace | openParen | closeParen => exact Text.isLine_ofList (by decide)

theorem isLine_describe_of_isPunctuation {kind : Kind} (h : kind.isPunctuation = true) :
    IsLine kind.describe := by
  cases kind with
  | equals | openBrace | closeBrace | openParen | closeParen => exact Text.isLine_ofList (by decide)
  | _ => cases h

end Token.Kind

namespace SyntaxError

/-- A text names what it asks for on one line if the tokens that it names stand on one. -/
theorem isLine_text_expectation {what : Expectation}
    (h : ∀ kind ∈ what.quoted, IsLine kind.describe) : IsLine what.text := by
  cases what with
  | slotItem name | paragraphContent name | nestedContent name | string name =>
    have hname : IsLine name :=
      Token.Kind.isLine_of_describe (h (.word name) (List.mem_singleton_self _))
    exact Text.isLine_around (by decide) hname (by decide)
  | nestedEnd opened =>
    have hopened : IsLine opened.text :=
      ((Text.isLine_repr_nat _).append (Text.isLine_ofList (by decide))).append
        (Text.isLine_repr_nat _)
    exact (Text.isLine_ofList (by decide)).append hopened
  | _ => exact Text.isLine_ofList (by decide)

theorem Cause.isLine_message {cause : Cause} (h : ∀ kind ∈ cause.quoted, IsLine kind.describe) :
    IsLine cause.message := by
  cases cause with
  | lexical cause => exact h (.error cause) (List.mem_singleton_self _)
  | unexpected what found =>
    rw [Cause.quoted, List.forall_mem_append] at h
    have hwhat := isLine_text_expectation h.1
    have hfound : IsLine (Token.Kind.describeNext found) := by
      cases found with
      | none => exact Text.isLine_ofList (by decide)
      | some kind => exact h.2 kind (List.mem_singleton_self _)
    exact (Text.isLine_around (by decide) hwhat (by decide)).append hfound
  | emptySpan style =>
    have hstyle : IsLine style :=
      Token.Kind.isLine_of_describe (h (.word style) (List.mem_singleton_self _))
    exact Text.isLine_around (by decide) hstyle (by decide)

end SyntaxError

/-! ### Texts whose strings stand on one line -/

/-- The values of the strings of a text. -/
def Scan.strings (scan : Scan) : List String :=
  scan.tokens.filterMap fun token => token.kind.string?

theorem Scan.isLine_describe_of_mem {text : String}
    (h : ∀ value ∈ (ofText text).strings, IsLine value) {kind : Token.Kind}
    (hkind : kind ∈ (ofText text).tokens.map Token.kind) : IsLine kind.describe := by
  obtain ⟨token, htoken, rfl⟩ := List.mem_map.mp hkind
  obtain ⟨s, hwritten⟩ := exists_isWritten_of_mem_ofText htoken
  exact hwritten.isLine_describe fun value hvalue =>
    h value (List.mem_filterMap.mpr ⟨token, htoken, hvalue⟩)

namespace Node

/-- The tokens that a node stands for apart from those of its children. -/
def Head.kinds : Head → List Token.Kind
  | .atom a => a.kinds
  | .group g => g.opening ++ g.closing

/-- A node whose tokens stand on one line. -/
def Head.IsOnLine (head : Head) : Prop :=
  ∀ kind ∈ head.kinds, IsLine kind.describe

mutual

theorem kinds_subset_of_mem_preorder {entry : Location × Head} :
    (node : Node) → entry ∈ node.preorder → entry.2.kinds ⊆ node.kinds
  | .atom loc a, hmem => by
    rw [preorder, List.mem_singleton] at hmem
    rw [hmem, kinds]
    exact List.Subset.refl _
  | .group loc g children, hmem => by
    rw [preorder, List.mem_cons] at hmem
    rw [kinds]
    rcases hmem with rfl | hmem
    · exact List.append_subset.mpr ⟨List.subset_append_left _ _,
        List.Subset.trans (List.subset_append_right _ _) (List.subset_append_right _ _)⟩
    · have hchildren := kinds_subset_of_mem_preorderOfAll children hmem
      exact List.Subset.trans hchildren
        (List.Subset.trans (List.subset_append_left _ _) (List.subset_append_right _ _))

theorem kinds_subset_of_mem_preorderOfAll {entry : Location × Head} :
    (nodes : List Node) → entry ∈ preorderOfAll nodes → entry.2.kinds ⊆ kindsOfAll nodes
  | [], hmem => by
    rw [preorderOfAll] at hmem
    exact absurd hmem List.not_mem_nil
  | node :: nodes, hmem => by
    rw [preorderOfAll, List.mem_append] at hmem
    rw [kindsOfAll]
    rcases hmem with hmem | hmem
    · exact List.Subset.trans (kinds_subset_of_mem_preorder node hmem) (List.subset_append_left _ _)
    · exact List.Subset.trans (kinds_subset_of_mem_preorderOfAll nodes hmem)
        (List.subset_append_right _ _)

end

end Node

namespace Template

variable {text : String}

theorem isLine_message_of_mem_errors (h : ∀ value ∈ (Scan.ofText text).strings, IsLine value)
    {e : SyntaxError} (he : e ∈ (ofText text).errors) : IsLine e.cause.message :=
  SyntaxError.Cause.isLine_message fun _ hkind =>
    Scan.isLine_describe_of_mem h (quoted_subset_of_mem_errors he hkind)

/-- The nodes that the events of a text enter stand on one line if the strings of the text do. -/
theorem isOnLine_of_enter_mem_events (h : ∀ value ∈ (Scan.ofText text).strings, IsLine value)
    {loc : Location} {head : Node.Head} (hevent : .enter loc head ∈ (ofText text).events) :
    head.IsOnLine := by
  have hmem : (loc, head) ∈ Node.preorderOfAll (ofText text).items := by
    rw [← Node.filterMap_entered?_eventsOfAll]
    exact List.mem_filterMap.mpr ⟨_, hevent, rfl⟩
  intro kind hkind
  by_cases hpunctuation : kind.isPunctuation = true
  · exact Token.Kind.isLine_describe_of_isPunctuation hpunctuation
  · have hsignificant : kind ∈ significant (Node.kindsOfAll (ofText text).items) := by
      refine List.mem_filter.mpr ⟨Node.kinds_subset_of_mem_preorderOfAll _ hmem hkind, ?_⟩
      simpa using hpunctuation
    have hscanned := (significant_items_sublist text).subset hsignificant
    exact Scan.isLine_describe_of_mem h ((List.mem_filter.mp hscanned).1)

end Template

end Typikon
