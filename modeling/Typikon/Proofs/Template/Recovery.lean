import Mathlib.Data.List.TakeWhile
import Typikon.Proofs.Template.Locality

/-!
Recovery in bodies. A body has a paragraph for each word that styles one, and what becomes of it is
decided by the tokens up to the next such word or the end of the body. Whatever is wrong with other
tokens of the text, no paragraph is lost by it and none is changed.
-/

namespace Typikon

def Token.paragraphHead? (token : Token) : Option (String × Location) :=
  (Reading.paragraphStyle? token.kind).map fun style => (style, token.location)

def Node.paragraphHead? : Node → Option (String × Location)
  | .group loc (.paragraph style _) _ => some (style, loc)
  | _ => none

def Template.paragraphs (t : Template) : List Node :=
  t.items.filter fun node => node.paragraphHead?.isSome

namespace Reading

/-- The tokens of the body whose brace has been read: those up to the first closing one. -/
def bodyTokens (tokens : List Token) : List Token :=
  tokens.takeWhile fun token => token.kind ≠ .closeBrace

def afterBody (tokens : List Token) : List Token :=
  (tokens.dropWhile fun token => token.kind ≠ .closeBrace).tail

theorem length_afterBody_le (tokens : List Token) : (afterBody tokens).length ≤ tokens.length := by
  have hsuffix := List.dropWhile_suffix (l := tokens) fun token => token.kind ≠ .closeBrace
  have hle := hsuffix.length_le
  unfold afterBody
  rw [List.length_tail]
  omega

/-- The bodies of a text, each begun by a brace outside all others. -/
def bodies : List Token → List (List Token)
  | [] => []
  | token :: rest =>
    if token.kind = .openBrace then
      have := length_afterBody_le rest
      bodyTokens rest :: bodies (afterBody rest)
    else bodies rest
termination_by tokens => tokens.length
decreasing_by
  · exact Nat.lt_succ_of_le this
  · exact Nat.lt_succ_self _

end Reading

/-- A word that styles a paragraph, and the tokens after it up to the next one. -/
structure Stretch where
  style : String
  location : Location
  tokens : List Token

namespace Stretch

/-- The stretches of a body. The tokens before the first paragraph are in none. -/
def ofBody : List Token → List Stretch
  | [] => []
  | token :: rest =>
    match token.paragraphHead? with
    | some (style, loc) =>
      ⟨style, loc, rest.takeWhile fun other => other.paragraphHead?.isNone⟩ :: ofBody rest
    | none => ofBody rest

/-- The paragraph of a stretch, made from its tokens alone. -/
def node (s : Stretch) : Node :=
  (Reading.paragraph s.style s.location (Reports.none .start) s.tokens).value

theorem paragraphHead?_node (s : Stretch) : s.node.paragraphHead? = some (s.style, s.location) := by
  obtain ⟨_, h⟩ := Reading.paragraph_eq s.style s.location (Reports.none .start) s.tokens
  rw [node, h]
  rfl

theorem map_head_ofBody (body : List Token) :
    (ofBody body).map (fun s => (s.style, s.location)) = body.filterMap Token.paragraphHead? := by
  induction body with
  | nil => rfl
  | cons token rest ih =>
    rw [ofBody, List.filterMap_cons]
    cases token.paragraphHead? with
    | none => exact ih
    | some head => exact congrArg (head :: ·) ih

end Stretch

namespace Token

theorem isInside_iff {token : Token} :
    token.IsInside ↔ token.kind ≠ .closeBrace ∧ token.paragraphHead? = none := by
  simp [IsInside, Reading.isBodyToken, paragraphHead?]

end Token

namespace PassesOver

variable {tokens rest : List Token}

theorem ofBody_bodyTokens (h : PassesOver Token.IsInside tokens rest) :
    Stretch.ofBody (Reading.bodyTokens tokens) = Stretch.ofBody (Reading.bodyTokens rest) := by
  obtain ⟨taken, rfl, htaken⟩ := h
  induction taken with
  | nil => rfl
  | cons token taken ih =>
    obtain ⟨hclose, hhead⟩ := Token.isInside_iff.mp (htaken token List.mem_cons_self)
    have hrest := ih fun other hmem => htaken other (List.mem_cons_of_mem token hmem)
    rw [← hrest]
    simp [Reading.bodyTokens, hclose, Stretch.ofBody, hhead]

theorem afterBody (h : PassesOver Token.IsInside tokens rest) :
    Reading.afterBody tokens = Reading.afterBody rest := by
  obtain ⟨taken, rfl, htaken⟩ := h
  induction taken with
  | nil => rfl
  | cons token taken ih =>
    obtain ⟨hclose, -⟩ := Token.isInside_iff.mp (htaken token List.mem_cons_self)
    have hrest := ih fun other hmem => htaken other (List.mem_cons_of_mem token hmem)
    rw [← hrest]
    simp [Reading.afterBody, hclose]

theorem bodies (h : PassesOver Token.IsOutside tokens rest) :
    Reading.bodies tokens = Reading.bodies rest := by
  obtain ⟨taken, rfl, htaken⟩ := h
  induction taken with
  | nil => rfl
  | cons token taken ih =>
    have hopen : token.kind ≠ .openBrace := htaken token List.mem_cons_self
    have hrest := ih fun other hmem => htaken other (List.mem_cons_of_mem token hmem)
    rw [← hrest, List.cons_append, Reading.bodies, if_neg hopen]

end PassesOver

namespace Reading

theorem passesOver_dropWhile (tokens : List Token) :
    PassesOver Token.IsInside tokens (tokens.dropWhile fun token => !isBodyToken token) := by
  refine ⟨_, List.takeWhile_append_dropWhile.symm, ?_⟩
  intro token hmem
  have hinside := List.mem_takeWhile_imp hmem
  simpa [Token.IsInside] using hinside

theorem stopsBody_dropWhile (tokens : List Token) :
    StopsBody (tokens.dropWhile fun token => !isBodyToken token) := by
  intro token hhead
  have hnot := List.head?_dropWhile_not (fun token => !isBodyToken token) tokens
  rw [hhead] at hnot
  simpa using hnot

theorem takeWhile_bodyTokens (tokens : List Token) :
    (bodyTokens tokens).takeWhile (fun token => token.paragraphHead?.isNone) =
      tokens.takeWhile fun token => !isBodyToken token := by
  rw [bodyTokens, List.takeWhile_takeWhile]
  congr 1
  funext token
  cases hstyle : paragraphStyle? token.kind <;>
    simp [isBodyToken, Token.paragraphHead?, hstyle]

/-- The paragraph read from the tokens of a body is that of its stretch. -/
theorem value_paragraph (style : String) (loc : Location) (reports : Reports)
    (tokens : List Token) :
    (paragraph style loc reports tokens).value =
      Stretch.node ⟨style, loc,
        (bodyTokens tokens).takeWhile fun token => token.paragraphHead?.isNone⟩ := by
  have hextends := extendsBy_paragraph (stopsBody_dropWhile tokens) style loc reports
    (Reports.none .start) (tokens.takeWhile fun token => !isBodyToken token)
  rw [List.takeWhile_append_dropWhile] at hextends
  rw [Stretch.node, takeWhile_bodyTokens]
  exact hextends.value

/-- A body is read to its end, and its paragraphs are those of its stretches. -/
theorem body_spec (reports : Reports) (tokens : List Token) :
    (body reports tokens).value = (Stretch.ofBody (bodyTokens tokens)).map Stretch.node ∧
      (body reports tokens).rest = afterBody tokens := by
  fun_induction body reports tokens with
  | case1 reports => exact ⟨rfl, rfl⟩
  | case2 reports token rest hclose => simp [bodyTokens, afterBody, hclose, Stretch.ofBody]
  | case3 reports token rest hclose style hstyle paragraph hle tail ih =>
    obtain ⟨hvalue, hrest⟩ := ih
    have hpasses := passesOver_paragraph style token.location reports rest
    have hhead : token.paragraphHead? = some (style, token.location) := by
      simp [Token.paragraphHead?, hstyle]
    constructor
    · have htokens : bodyTokens (token :: rest) = token :: bodyTokens rest := by
        simp [bodyTokens, hclose]
      rw [htokens, Stretch.ofBody, hhead]
      change paragraph.value :: tail.value = _
      rw [hvalue, ← hpasses.ofBody_bodyTokens]
      exact congrArg (· :: _) (value_paragraph style token.location reports rest)
    · have hafter : afterBody (token :: rest) = afterBody rest := by
        simp [afterBody, hclose]
      rw [hafter, hpasses.afterBody]
      exact hrest
  | case4 reports token rest hclose hstyle hle ih =>
    have hinside : token.IsInside :=
      Token.isInside_iff.mpr ⟨hclose, by simp [Token.paragraphHead?, hstyle]⟩
    have hpasses := PassesOver.cons hinside (passesOver_dropWhile rest)
    rw [hpasses.ofBody_bodyTokens, hpasses.afterBody]
    exact ih

theorem filter_node_ofBody (body : List Token) :
    ((Stretch.ofBody body).map Stretch.node).filter (fun node => node.paragraphHead?.isSome) =
      (Stretch.ofBody body).map Stretch.node := by
  apply List.filter_eq_self.mpr
  intro node hmem
  obtain ⟨s, -, rfl⟩ := List.mem_map.mp hmem
  rw [s.paragraphHead?_node]
  rfl

theorem paragraphHead?_of_mem_property {name : String} {loc : Location} {reports : Reports}
    {tokens : List Token} {node : Node}
    (h : node ∈ (property name loc reports tokens).value.toList) : node.paragraphHead? = none := by
  unfold property at h
  split at h
  · cases List.mem_singleton.mp h
    rfl
  · cases List.mem_singleton.mp h
    rfl
  · cases h

theorem passesOver_assignment {tokens rest : List Token} (word : String) (loc loc' : Location)
    (h : PassesOver Token.IsOutside tokens rest) :
    PassesOver Token.IsOutside (⟨.word word, loc⟩ :: ⟨.equals, loc'⟩ :: tokens) rest := by
  apply PassesOver.cons (Token.isOutside_word rfl)
  apply PassesOver.cons _ h
  intro hopen
  cases hopen

theorem filter_items (reports : Reports) (tokens : List Token) :
    (items reports tokens).value.filter (fun node => node.paragraphHead?.isSome) =
      (bodies tokens).flatMap fun body => (Stretch.ofBody body).map Stretch.node := by
  fun_induction items reports tokens with
  | case1 => simp [bodies]
  | case2 reports loc rest body hle tail ih =>
    obtain ⟨hvalue, hrest⟩ := body_spec reports rest
    rw [bodies, if_pos rfl, List.flatMap_cons, List.filter_append, ih]
    change (Reading.body reports rest).value.filter _ ++
      (bodies (Reading.body reports rest).rest).flatMap _ = _
    rw [hvalue, hrest, filter_node_ofBody]
  | case3 reports word loc loc' rest edge parity hword block hle tail ih =>
    have hpasses := passesOver_assignment word loc loc' (passesOver_positions reports rest)
    rw [hpasses.bodies]
    exact ih
  | case4 reports word loc loc' rest hword property hle tail ih =>
    have hpasses := passesOver_assignment word loc loc' (passesOver_property reports rest word loc)
    have hnone : property.value.toList.filter (fun node => node.paragraphHead?.isSome) = [] := by
      apply List.filter_eq_nil_iff.mpr
      intro node hmem
      rw [paragraphHead?_of_mem_property hmem]
      exact Bool.false_ne_true
    rw [hpasses.bodies, List.filter_append, hnone]
    exact ih
  | case5 reports token rest hopen hassignment hle ih =>
    have hne : token.kind ≠ .openBrace := fun h => hopen token.location (by rw [← h])
    rw [(PassesOver.cons hne (passesOver_skipToItem rest)).bodies]
    exact ih

end Reading

/-- Every text has a paragraph for each word that styles one in a body, with its style and at its
location, and no others. What the paragraph is depends only on the tokens from that word up to the
next one or the end of the body. -/
theorem Template.paragraphs_ofText (text : String) :
    (Template.ofText text).paragraphs =
        (Reading.bodies (Scan.ofText text).tokens).flatMap (fun body =>
          (Stretch.ofBody body).map Stretch.node) ∧
      ∀ body : List Token,
        ((Stretch.ofBody body).map Stretch.node).map Node.paragraphHead? =
          (body.filterMap Token.paragraphHead?).map some := by
  constructor
  · exact Reading.filter_items (Reports.none (Scan.ofText text).stop) (Scan.ofText text).tokens
  · intro body
    rw [← Stretch.map_head_ofBody, List.map_map, List.map_map]
    apply List.map_congr_left
    intro s _
    exact s.paragraphHead?_node

end Typikon
