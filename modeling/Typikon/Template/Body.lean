import Typikon.Template.Leaf

/-!
Bodies of templates: paragraphs of leaves and spans. A span has leaves, then perhaps more content in
parentheses. Content stops at the first token that begins none, and a body then goes on with the
next paragraph.
-/

namespace Typikon

/-- The words that style a paragraph: `p.` and something more. -/
def isParagraphStyle (word : String) : Bool :=
  match word.toList with
  | 'p' :: '.' :: _ :: _ => true
  | _ => false

/-- The words that style a span: `span.` and something more. -/
def isSpanStyle (word : String) : Bool :=
  match word.toList with
  | 's' :: 'p' :: 'a' :: 'n' :: '.' :: _ :: _ => true
  | _ => false

namespace Reading

def leaves (reports : Reports) : List Token → Reading (List Node)
  | [] => ⟨[], reports, []⟩
  | token :: rest =>
    match token.kind with
    | .word word =>
      match LeafKeyword.ofWord? word with
      | some keyword =>
        let leaf := leaf keyword token.location reports rest
        have := length_rest_leaf_le keyword token.location reports rest
        let tail := leaves leaf.reports leaf.rest
        { tail with value := leaf.value.toList ++ tail.value }
      | none => ⟨[], reports, token :: rest⟩
    | _ => ⟨[], reports, token :: rest⟩
termination_by tokens => tokens.length
decreasing_by exact Nat.lt_succ_of_le this

theorem length_rest_leaves_le (reports : Reports) (tokens : List Token) :
    (leaves reports tokens).rest.length ≤ tokens.length := by
  fun_induction leaves reports tokens with
  | case1 | case3 | case4 => simp
  | case2 => grind

/-- Readings that leave at most a number of tokens. -/
abbrev Within (α : Type) (n : Nat) : Type :=
  { reading : Reading α // reading.rest.length ≤ n }

mutual

def contentsWithin (reports : Reports) : (tokens : List Token) → Within (List Node) tokens.length
  | [] => ⟨⟨[], reports, []⟩, Nat.le_refl _⟩
  | token :: rest =>
    match token.kind with
    | .word word =>
      match LeafKeyword.ofWord? word with
      | some keyword =>
        let leaf := leaf keyword token.location reports rest
        have hleaf := length_rest_leaf_le keyword token.location reports rest
        let ⟨tail, htail⟩ := contentsWithin leaf.reports leaf.rest
        ⟨{ tail with value := leaf.value.toList ++ tail.value },
          Nat.le_succ_of_le (Nat.le_trans htail hleaf)⟩
      | none =>
        if isSpanStyle word then
          let ⟨span, hspan⟩ := spanWithin word token.location reports rest
          let ⟨tail, htail⟩ := contentsWithin span.reports span.rest
          ⟨{ tail with value := span.value :: tail.value },
            Nat.le_succ_of_le (Nat.le_trans htail hspan)⟩
        else ⟨⟨[], reports, token :: rest⟩, Nat.le_refl _⟩
    | _ => ⟨⟨[], reports, token :: rest⟩, Nat.le_refl _⟩
termination_by tokens => tokens.length
decreasing_by all_goals simp only [List.length_cons]; omega

/-- The span whose style has been read. -/
def spanWithin (style : String) (loc : Location) (reports : Reports) (tokens : List Token) :
    Within Node tokens.length :=
  let leaves := leaves reports tokens
  have hleaves := length_rest_leaves_le reports tokens
  match hrest : leaves.rest with
  | ⟨.openParen, opened⟩ :: rest =>
    have hlt : rest.length < tokens.length := by
      have := congrArg List.length hrest
      simp only [List.length_cons, leaves] at this
      omega
    let ⟨nested, hnested⟩ := contentsWithin leaves.reports rest
    let reports :=
      if nested.value.isEmpty then nested.reports.expected (.nestedContent style) nested.rest
      else nested.reports
    let node := .group loc (.span style) (leaves.value ++ nested.value)
    match hend : nested.rest with
    | ⟨.closeParen, _⟩ :: rest =>
      ⟨⟨node, reports, rest⟩, by
        have := congrArg List.length hend
        simp only [List.length_cons] at this
        simp only
        omega⟩
    | rest =>
      ⟨⟨node, reports.expected (.nestedEnd opened) rest, rest⟩, by
        have := congrArg List.length hend
        simp only
        omega⟩
  | rest =>
    let reports :=
      if leaves.value.isEmpty then leaves.reports.add (.emptySpan style) loc else leaves.reports
    ⟨⟨.group loc (.span style) leaves.value, reports, rest⟩, by
      have := congrArg List.length hrest
      simp only [leaves] at this
      simp only
      omega⟩
termination_by tokens.length

end

def contents (reports : Reports) (tokens : List Token) : Reading (List Node) :=
  (contentsWithin reports tokens).1

def span (style : String) (loc : Location) (reports : Reports) (tokens : List Token) :
    Reading Node :=
  (spanWithin style loc reports tokens).1

theorem length_rest_contents_le (reports : Reports) (tokens : List Token) :
    (contents reports tokens).rest.length ≤ tokens.length :=
  (contentsWithin reports tokens).2

theorem length_rest_span_le (style : String) (loc : Location) (reports : Reports)
    (tokens : List Token) : (span style loc reports tokens).rest.length ≤ tokens.length :=
  (spanWithin style loc reports tokens).2

theorem contents_nil (reports : Reports) : contents reports [] = ⟨[], reports, []⟩ := by
  simp [contents, contentsWithin]

theorem contents_leaf {word : String} {keyword : LeafKeyword} (reports : Reports) (loc : Location)
    (rest : List Token) (h : LeafKeyword.ofWord? word = some keyword) :
    contents reports (⟨.word word, loc⟩ :: rest) =
      let leaf := leaf keyword loc reports rest
      let tail := contents leaf.reports leaf.rest
      { tail with value := leaf.value.toList ++ tail.value } := by
  rw [contents, contentsWithin]
  simp only
  split
  · rename_i other hother
    obtain rfl : other = keyword := by simpa [h] using hother.symm
    rfl
  · simp_all

theorem contents_span {word : String} (reports : Reports) (loc : Location) (rest : List Token)
    (hleaf : LeafKeyword.ofWord? word = none) (hspan : isSpanStyle word = true) :
    contents reports (⟨.word word, loc⟩ :: rest) =
      let span := span word loc reports rest
      let tail := contents span.reports span.rest
      { tail with value := span.value :: tail.value } := by
  rw [contents, contentsWithin]
  simp only
  split
  · simp_all
  · rw [if_pos hspan]
    rfl

def beginsContent : Token.Kind → Bool
  | .word word => (LeafKeyword.ofWord? word).isSome || isSpanStyle word
  | _ => false

theorem contents_of_not_beginsContent {token : Token} (reports : Reports) (rest : List Token)
    (h : beginsContent token.kind = false) :
    contents reports (token :: rest) = ⟨[], reports, token :: rest⟩ := by
  rw [contents, contentsWithin]
  unfold beginsContent at h
  split at h <;> simp_all

theorem span_of_openParen {reports : Reports} {tokens rest : List Token} {opened : Location}
    (style : String) (loc : Location)
    (h : (leaves reports tokens).rest = ⟨.openParen, opened⟩ :: rest) :
    span style loc reports tokens =
      let leaves := leaves reports tokens
      let nested := contents leaves.reports rest
      let reports :=
        if nested.value.isEmpty then nested.reports.expected (.nestedContent style) nested.rest
        else nested.reports
      let node := .group loc (.span style) (leaves.value ++ nested.value)
      match nested.rest with
      | ⟨.closeParen, _⟩ :: rest => ⟨node, reports, rest⟩
      | rest => ⟨node, reports.expected (.nestedEnd opened) rest, rest⟩ := by
  rw [span, spanWithin]
  simp only
  split
  · rename_i opened' rest' h'
    obtain ⟨rfl, rfl⟩ : opened' = opened ∧ rest' = rest := by simpa [h] using h'.symm
    unfold contents
    split <;> split <;> simp_all
  · simp_all

theorem span_of_not_openParen {reports : Reports} {tokens : List Token}
    (style : String) (loc : Location)
    (h : ∀ opened rest, (leaves reports tokens).rest ≠ ⟨.openParen, opened⟩ :: rest) :
    span style loc reports tokens =
      let leaves := leaves reports tokens
      let reports :=
        if leaves.value.isEmpty then leaves.reports.add (.emptySpan style) loc else leaves.reports
      ⟨.group loc (.span style) leaves.value, reports, leaves.rest⟩ := by
  rw [span, spanWithin]
  simp only

/-- The paragraph whose style has been read. It may end in `@Ver`, which asks for a version. -/
def paragraph (style : String) (loc : Location) (reports : Reports) (tokens : List Token) :
    Reading Node :=
  let contents := contents reports tokens
  let reports :=
    if contents.value.isEmpty then
      contents.reports.expected (.paragraphContent style) contents.rest
    else contents.reports
  match contents.rest with
  | ⟨.directive "Ver", _⟩ :: rest =>
    ⟨.group loc (.paragraph style true) contents.value, reports, rest⟩
  | rest => ⟨.group loc (.paragraph style false) contents.value, reports, rest⟩

theorem length_rest_paragraph_le (style : String) (loc : Location) (reports : Reports)
    (tokens : List Token) : (paragraph style loc reports tokens).rest.length ≤ tokens.length := by
  have := length_rest_contents_le reports tokens
  unfold paragraph
  dsimp only
  split <;> grind

/-- The style of the paragraph that a token begins, if it begins one. -/
def paragraphStyle? : Token.Kind → Option String
  | .word word => if isParagraphStyle word then some word else none
  | _ => none

/-- Whether a body can go on at a token, with a paragraph or its end. -/
def isBodyToken (token : Token) : Bool :=
  token.kind = .closeBrace || (paragraphStyle? token.kind).isSome

/-- The paragraphs of the body whose brace has been read. Tokens that begin no paragraph are
reported once and passed over up to the next paragraph or the end of the body. -/
def body (reports : Reports) : List Token → Reading (List Node)
  | [] => ⟨[], reports.expected .bodyEnd [], []⟩
  | token :: rest =>
    if token.kind = .closeBrace then ⟨[], reports, rest⟩
    else
      match paragraphStyle? token.kind with
      | some style =>
        let paragraph := paragraph style token.location reports rest
        have := length_rest_paragraph_le style token.location reports rest
        let tail := body paragraph.reports paragraph.rest
        { tail with value := paragraph.value :: tail.value }
      | none =>
        have := (List.dropWhile_suffix (l := rest) fun t => !isBodyToken t).length_le
        body (reports.expected .paragraph (token :: rest)) (rest.dropWhile fun t => !isBodyToken t)
termination_by tokens => tokens.length
decreasing_by all_goals exact Nat.lt_succ_of_le this

theorem length_rest_body_le (reports : Reports) (tokens : List Token) :
    (body reports tokens).rest.length ≤ tokens.length := by
  fun_induction body reports tokens with
  | case1 => simp
  | case2 => simp
  | case3 => grind
  | case4 => grind

end Reading

end Typikon
