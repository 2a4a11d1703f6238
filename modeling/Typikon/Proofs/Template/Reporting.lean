import Typikon.Proofs.Template.Covering
import Typikon.Proofs.Template.Progress

/-!
Where syntax errors are reported. Reading never goes back, so the tokens that are left are ahead of
what has been reported, and each error lies behind those found before it. There is one exception: a
span that turns out to have no content is reported at its style, which is behind by then. If that
style has already been reported in place of a string or an integer, there are two errors at it.
-/

namespace Typikon

/-- What a leaf or an override goes on with. -/
inductive Expectation.IsOfLeaf : Expectation → Prop where
  | string (keyword : String) : IsOfLeaf (.string keyword)
  | integer : IsOfLeaf .integer

namespace SyntaxError

/-- An error repeats another one: it is that of a span without content, and the other one has found
the style of the span in place of a string or an integer. -/
def Repeats (later earlier : SyntaxError) : Prop :=
  ∃ style what, what.IsOfLeaf ∧ earlier.cause = .unexpected what (some (.word style)) ∧
    later.cause = .emptySpan style

def IsOfEmptySpan (e : SyntaxError) : Prop :=
  ∃ style, e.cause = .emptySpan style

/-- How an error comes after another one: it lies further on in the text; or it is that of a span
without content, and lies elsewhere or repeats the other. -/
def Follows (later earlier : SyntaxError) : Prop :=
  earlier.location < later.location ∨
    later.IsOfEmptySpan ∧ (earlier.location ≠ later.location ∨ later.Repeats earlier)

theorem Follows.ne_or_repeats {later earlier : SyntaxError} (h : later.Follows earlier) :
    earlier.location ≠ later.location ∨ later.Repeats earlier := by
  rcases h with hlt | ⟨-, h⟩
  · exact .inl hlt.ne
  · exact h

end SyntaxError

namespace Reports

/-! ### What is ahead of reports -/

/-- Reports on what comes before some tokens. The locations ahead grow, and nothing has been
reported at the next of them unless it is the last one reported. -/
structure IsBehind (reports : Reports) (tokens : List Token) : Prop where
  ascending : (Scan.locations ⟨tokens, reports.stop⟩).Pairwise (· < ·)
  last_le : ∀ loc, reports.last = some loc → loc ≤ reports.nextLocation tokens
  errors_le : ∀ e ∈ reports.errors, e.location < reports.nextLocation tokens ∨
    e.location = reports.nextLocation tokens ∧ reports.last = some e.location
  follows : reports.errors.Pairwise SyntaxError.Follows

/-- The tokens may be content, and what is reported at a token that begins content is that it stands
in place of a string or an integer. -/
structure IsBehindContent (reports : Reports) (tokens : List Token) : Prop
    extends reports.IsBehind tokens where
  broken : ∀ token, tokens.head? = some token → Reading.beginsContent token.kind = true →
    ∀ e ∈ reports.errors, e.location = token.location →
      ∃ what : Expectation, what.IsOfLeaf ∧ e.cause = .ofNext what (some token.kind)

variable {reports : Reports} {token : Token} {tokens rest : List Token}

theorem nextLocation_mem (reports : Reports) (tokens : List Token) :
    reports.nextLocation tokens ∈ Scan.locations ⟨tokens, reports.stop⟩ := by
  cases tokens with
  | nil => exact List.mem_singleton_self _
  | cons token tokens => exact List.mem_cons_self

theorem locations_cons (token : Token) (tokens : List Token) (stop : Location) :
    Scan.locations ⟨token :: tokens, stop⟩ = token.location :: Scan.locations ⟨tokens, stop⟩ := rfl

theorem mem_locations_of_suffix {stop loc : Location} (h : rest <:+ tokens)
    (hloc : loc ∈ Scan.locations ⟨rest, stop⟩) : loc ∈ Scan.locations ⟨tokens, stop⟩ := by
  obtain ⟨taken, rfl⟩ := h
  simp only [Scan.locations, List.map_append, List.append_assoc] at hloc ⊢
  exact List.mem_append_right _ hloc

theorem isBehind_none {stop : Location} (h : (Scan.locations ⟨tokens, stop⟩).Pairwise (· < ·)) :
    (none stop).IsBehind tokens where
  ascending := h
  last_le loc hlast := absurd hlast.symm (Option.some_ne_none loc)
  errors_le _ hmem := absurd hmem List.not_mem_nil
  follows := .nil

namespace IsBehind

theorem lt_of_mem (h : reports.IsBehind (token :: tokens)) {loc : Location}
    (hloc : loc ∈ Scan.locations ⟨tokens, reports.stop⟩) : token.location < loc :=
  List.rel_of_pairwise_cons (locations_cons token tokens _ ▸ h.ascending) hloc

theorem errors_lt_of_cons (h : reports.IsBehind (token :: tokens)) :
    ∀ e ∈ reports.errors, e.location < reports.nextLocation tokens := by
  intro e hmem
  have hnext := h.lt_of_mem (reports.nextLocation_mem tokens)
  rcases h.errors_le e hmem with hlt | ⟨heq, -⟩
  · exact hlt.trans hnext
  · exact heq ▸ hnext

/-- When a token has been passed over, nothing has been reported at the next one. -/
theorem of_cons (h : reports.IsBehind (token :: tokens)) : reports.IsBehindContent tokens where
  ascending := (List.pairwise_cons.mp (locations_cons token tokens _ ▸ h.ascending)).2
  last_le loc hlast :=
    ((h.last_le loc hlast).trans_lt (h.lt_of_mem (reports.nextLocation_mem tokens))).le
  errors_le e hmem := .inl (h.errors_lt_of_cons e hmem)
  follows := h.follows
  broken := by
    intro next hhead _ e hmem heq
    have hlt := h.errors_lt_of_cons e hmem
    obtain ⟨rest, rfl⟩ := List.head?_eq_some_iff.mp hhead
    exact absurd heq hlt.ne

theorem last_ne_of_cons (h : reports.IsBehind (token :: tokens)) :
    reports.last ≠ some (reports.nextLocation tokens) := fun hlast =>
  absurd ((h.last_le _ hlast).trans_lt (h.lt_of_mem (reports.nextLocation_mem tokens)))
    (lt_irrefl _)

theorem of_suffix (h : reports.IsBehind tokens) (hsuffix : rest <:+ tokens) :
    reports.IsBehind rest := by
  obtain ⟨taken, rfl⟩ := hsuffix
  induction taken with
  | nil => exact h
  | cons token taken ih => exact ih h.of_cons.toIsBehind

theorem content_of_head (h : reports.IsBehind tokens)
    (hhead : ∀ token, tokens.head? = some token → Reading.beginsContent token.kind = false) :
    reports.IsBehindContent tokens where
  toIsBehind := h
  broken token htoken hbegins := by
    rw [hhead token htoken] at hbegins
    exact Bool.noConfusion hbegins

end IsBehind

section Expected

variable {what : Expectation}

theorem expected_of_last (h : reports.last = some (reports.nextLocation tokens)) :
    reports.expected what tokens = reports := by
  rw [expected]
  exact if_pos h

theorem expected_of_last_ne (h : reports.last ≠ some (reports.nextLocation tokens)) :
    reports.expected what tokens =
      { reports.add (.ofNext what (tokens.head?.map Token.kind)) (reports.nextLocation tokens) with
        last := some (reports.nextLocation tokens) } := by
  rw [expected]
  exact if_neg h

theorem IsBehind.errors_lt (h : reports.IsBehind tokens)
    (hlast : reports.last ≠ some (reports.nextLocation tokens)) :
    ∀ e ∈ reports.errors, e.location < reports.nextLocation tokens := by
  intro e hmem
  rcases h.errors_le e hmem with hlt | ⟨heq, hsome⟩
  · exact hlt
  · exact absurd (heq ▸ hsome) hlast

theorem IsBehind.expected (h : reports.IsBehind tokens) (what : Expectation) :
    (reports.expected what tokens).IsBehind tokens := by
  by_cases hlast : reports.last = some (reports.nextLocation tokens)
  · rwa [expected_of_last hlast]
  · have hlt := h.errors_lt hlast
    rw [expected_of_last_ne hlast]
    refine ⟨h.ascending, ?_, ?_, ?_⟩
    · intro loc hloc
      exact (Option.some.inj hloc).ge
    · intro e hmem
      rcases List.mem_cons.mp hmem with rfl | hmem
      · exact .inr ⟨rfl, rfl⟩
      · exact .inl (hlt e hmem)
    · exact List.pairwise_cons.mpr ⟨fun e hmem => .inl (hlt e hmem), h.follows⟩

theorem IsBehindContent.expected (h : reports.IsBehindContent tokens) (hwhat : what.IsOfLeaf) :
    (reports.expected what tokens).IsBehindContent tokens where
  toIsBehind := h.toIsBehind.expected what
  broken token hhead hbegins e hmem heq := by
    by_cases hlast : reports.last = some (reports.nextLocation tokens)
    · rw [expected_of_last hlast] at hmem
      exact h.broken token hhead hbegins e hmem heq
    · rw [expected_of_last_ne hlast] at hmem
      rcases List.mem_cons.mp hmem with rfl | hmem
      · exact ⟨what, hwhat, by rw [hhead]; rfl⟩
      · exact h.broken token hhead hbegins e hmem heq

end Expected

end Reports

/-! ### Readings and their reports -/

/-- Reading goes on from some reports and tokens to others. What is reported on the way is at the
tokens or at the end, and what holds of the reports and tokens before gives what holds after. -/
structure Leads (P Q : Reports → List Token → Prop) (reports : Reports) (tokens : List Token)
    (later : Reports) (rest : List Token) : Prop where
  stop : later.stop = reports.stop
  suffix : rest <:+ tokens
  errors : ∃ new, later.errors = new ++ reports.errors ∧
    ∀ e ∈ new, e.location ∈ Scan.locations ⟨tokens, reports.stop⟩
  holds : P reports tokens → Q later rest

open Reports (IsBehind IsBehindContent)

namespace Leads

variable {P P' Q Q' R : Reports → List Token → Prop} {reports between later : Reports}
  {tokens left rest : List Token}

theorem refl (P : Reports → List Token → Prop) (reports : Reports) (tokens : List Token) :
    Leads P P reports tokens reports tokens :=
  ⟨rfl, List.suffix_rfl, ⟨[], rfl, fun _ hmem => absurd hmem List.not_mem_nil⟩, id⟩

theorem trans (h : Leads P Q reports tokens between left) (h' : Leads Q R between left later rest) :
    Leads P R reports tokens later rest where
  stop := h'.stop.trans h.stop
  suffix := h'.suffix.trans h.suffix
  errors := by
    obtain ⟨new, hnew, hmem⟩ := h.errors
    obtain ⟨new', hnew', hmem'⟩ := h'.errors
    refine ⟨new' ++ new, by rw [hnew', hnew, List.append_assoc], ?_⟩
    rw [List.forall_mem_append]
    refine ⟨fun e he => ?_, hmem⟩
    rw [← h.stop]
    exact Reports.mem_locations_of_suffix h.suffix (hmem' e he)
  holds := h'.holds ∘ h.holds

theorem mono (h : Leads P Q reports tokens later rest) (hP : P' reports tokens → P reports tokens)
    (hQ : Q later rest → Q' later rest) : Leads P' Q' reports tokens later rest :=
  { h with holds := hQ ∘ h.holds ∘ hP }

theorem of_suffix (reports : Reports) (h : rest <:+ tokens) :
    Leads IsBehind IsBehind reports tokens reports rest :=
  ⟨rfl, h, ⟨[], rfl, fun _ hmem => absurd hmem List.not_mem_nil⟩,
    fun hbehind => hbehind.of_suffix h⟩

theorem cons (token : Token) (h : Leads IsBehindContent Q reports tokens later rest) :
    Leads IsBehind Q reports (token :: tokens) later rest := by
  have htoken : Leads IsBehind IsBehindContent reports (token :: tokens) reports tokens :=
    { of_suffix reports (List.suffix_cons token tokens) with holds := IsBehind.of_cons }
  exact htoken.trans h

theorem toBehind (h : Leads P IsBehindContent reports tokens later rest) :
    Leads P IsBehind reports tokens later rest :=
  h.mono id IsBehindContent.toIsBehind

theorem ofContent (h : Leads IsBehind Q reports tokens later rest) :
    Leads IsBehindContent Q reports tokens later rest :=
  h.mono IsBehindContent.toIsBehind id

theorem errors_expected (reports : Reports) (what : Expectation) (tokens : List Token) :
    ∃ new, (reports.expected what tokens).errors = new ++ reports.errors ∧
      ∀ e ∈ new, e.location ∈ Scan.locations ⟨tokens, reports.stop⟩ := by
  by_cases hlast : reports.last = some (reports.nextLocation tokens)
  · rw [Reports.expected_of_last hlast]
    exact ⟨[], rfl, fun _ hmem => absurd hmem List.not_mem_nil⟩
  · rw [Reports.expected_of_last_ne hlast]
    refine ⟨[_], rfl, ?_⟩
    rw [List.forall_mem_singleton]
    exact reports.nextLocation_mem tokens

theorem stop_expected (reports : Reports) (what : Expectation) (tokens : List Token) :
    (reports.expected what tokens).stop = reports.stop := by
  unfold Reports.expected
  dsimp only
  split <;> rfl

theorem expected (reports : Reports) (what : Expectation) (tokens : List Token) :
    Leads IsBehind IsBehind reports tokens (reports.expected what tokens) tokens :=
  ⟨stop_expected reports what tokens, List.suffix_rfl, errors_expected reports what tokens,
    fun h => h.expected what⟩

theorem expectedOfLeaf (reports : Reports) {what : Expectation} (hwhat : what.IsOfLeaf)
    (tokens : List Token) :
    Leads IsBehindContent IsBehindContent reports tokens (reports.expected what tokens) tokens :=
  { expected reports what tokens with holds := fun h => h.expected hwhat }

theorem expectedIf (h : Leads P IsBehind reports tokens later rest) (condition : Bool)
    (what : Expectation) :
    Leads P IsBehind reports tokens (if condition then later.expected what rest else later)
      rest := by
  cases condition with
  | false => exact h
  | true => exact h.trans (.expected later what rest)

end Leads

namespace Reading

variable (reports : Reports) (tokens : List Token)

theorem leads_overrides :
    Leads IsBehindContent IsBehindContent reports tokens (overrides reports tokens).reports
      (overrides reports tokens).rest := by
  fun_induction overrides reports tokens with
  | case1 | case2 | case5 => exact .refl _ _ _
  | case3 reports token name hkind kind hsome value loc rest tail ih =>
    exact (Leads.cons token (Leads.cons _ ih).ofContent).ofContent
  | case4 reports token name hkind kind hsome rest hint ih =>
    exact (Leads.cons token ((Leads.expectedOfLeaf reports .integer rest).trans ih)).ofContent

theorem leads_leaf (keyword : LeafKeyword) (loc : Location) :
    Leads IsBehindContent IsBehindContent reports tokens (leaf keyword loc reports tokens).reports
      (leaf keyword loc reports tokens).rest := by
  unfold leaf
  split
  next s stringLoc rest =>
    cases keyword with
    | nid | sid | media => exact (Leads.cons _ (.refl _ reports rest)).ofContent
    | rid => exact (Leads.cons _ (leads_overrides reports rest)).ofContent
  · exact .expectedOfLeaf reports (.string keyword.word) _

theorem leads_leaves :
    Leads IsBehindContent IsBehindContent reports tokens (leaves reports tokens).reports
      (leaves reports tokens).rest := by
  fun_induction leaves reports tokens with
  | case1 | case3 | case4 => exact .refl _ _ _
  | case2 reports token rest word hkind keyword hword leaf hle tail ih =>
    exact (Leads.cons token ((leads_leaf reports rest keyword token.location).trans ih)).ofContent

/-- Content stops where no content begins. -/
theorem beginsContent_head_contents (reports : Reports) (tokens : List Token) :
    ∀ token, (contents reports tokens).rest.head? = some token →
      beginsContent token.kind = false := by
  revert reports tokens
  refine (contents_span_induction (S := fun _ _ _ _ => True) ?nil ?ofLeaf ?ofSpan ?other
    (fun _ _ _ _ _ _ _ _ => trivial) (fun _ _ _ _ _ => trivial)).1
  case nil =>
    intro reports
    rw [contents_nil]
    exact fun token h => absurd h.symm (Option.some_ne_none token)
  case ofLeaf =>
    intro reports loc rest word keyword hword ih
    rwa [contents_leaf reports loc rest hword]
  case ofSpan =>
    intro reports loc rest style hleaf hspan _ ih
    rwa [contents_span reports loc rest hleaf hspan]
  case other =>
    intro reports kind loc rest hother token h
    rw [contents_of_not_beginsContent reports rest hother] at h
    cases h
    exact hother

/-- A span without content is reported at its style. It repeats an error there at most if that one
has found the style in place of a string or an integer. -/
theorem leads_addEmptySpan {style : String} (hstyle : isSpanStyle style = true) {loc : Location}
    {later : Reports} {rest : List Token}
    (h : Leads IsBehindContent IsBehindContent reports tokens later rest) :
    Leads IsBehindContent IsBehindContent reports (⟨.word style, loc⟩ :: tokens)
      (later.add (.emptySpan style) loc) rest where
  stop := h.stop
  suffix := h.suffix.trans (List.suffix_cons _ tokens)
  errors := by
    obtain ⟨new, hnew, hmem⟩ := h.errors
    refine ⟨⟨.emptySpan style, loc⟩ :: new, congrArg (_ :: ·) hnew, ?_⟩
    rw [List.forall_mem_cons]
    exact ⟨List.mem_cons_self, fun e he => List.mem_cons_of_mem loc (hmem e he)⟩
  holds := by
    intro hbehind
    have hread := h.holds hbehind.of_cons
    have hahead {l : Location} (hl : l ∈ Scan.locations ⟨tokens, reports.stop⟩) : loc < l :=
      hbehind.lt_of_mem hl
    have hnext : loc < later.nextLocation rest := by
      have hmem := later.nextLocation_mem rest
      rw [h.stop] at hmem
      exact hahead (Reports.mem_locations_of_suffix h.suffix hmem)
    obtain ⟨new, hnew, hmem⟩ := h.errors
    refine ⟨⟨hread.ascending, hread.last_le, ?_, List.pairwise_cons.mpr ⟨?_, hread.follows⟩⟩, ?_⟩
    · exact List.forall_mem_cons.mpr ⟨.inl hnext, hread.errors_le⟩
    · intro e he
      refine .inr ⟨⟨style, rfl⟩, ?_⟩
      rw [hnew, List.mem_append] at he
      rcases he with he | he
      · exact .inl (hahead (hmem e he)).ne'
      · refine or_iff_not_imp_left.mpr fun heq => ?_
        have hbegins : beginsContent (.word style) = true := by simp [beginsContent, hstyle]
        obtain ⟨what, hwhat, hcause⟩ :=
          hbehind.broken _ rfl hbegins e he (Decidable.of_not_not heq)
        exact ⟨style, what, hwhat, hcause, rfl⟩
    · intro token hhead hbegins
      refine List.forall_mem_cons.mpr ⟨fun heq => ?_, hread.broken token hhead hbegins⟩
      obtain ⟨tail, rfl⟩ := List.head?_eq_some_iff.mp hhead
      exact absurd heq hnext.ne

theorem leads_contents_and_span :
    (∀ reports tokens,
      Leads IsBehindContent IsBehindContent reports tokens (contents reports tokens).reports
        (contents reports tokens).rest) ∧
    ∀ style loc reports tokens, isSpanStyle style = true →
      Leads IsBehindContent IsBehindContent reports (⟨.word style, loc⟩ :: tokens)
        (span style loc reports tokens).reports (span style loc reports tokens).rest := by
  apply contents_span_induction
  case nil =>
    intro reports
    rw [contents_nil]
    exact .refl _ _ _
  case ofLeaf =>
    intro reports loc rest word keyword hword ih
    rw [contents_leaf reports loc rest hword]
    exact (((leads_leaf reports rest keyword loc).trans ih).cons _).ofContent
  case ofSpan =>
    intro reports loc rest style hleaf hspan hread ih
    rw [contents_span reports loc rest hleaf hspan]
    exact (hread hspan).trans ih
  case other =>
    intro reports kind loc rest hother
    rw [contents_of_not_beginsContent reports rest hother]
    exact .refl _ _ _
  case nested =>
    intro style loc reports tokens opened rest hopen ih _
    have hleaves := leads_leaves reports tokens
    rw [hopen] at hleaves
    have hread := ((hleaves.toBehind.trans (ih.cons ⟨.openParen, opened⟩)).cons
      ⟨.word style, loc⟩).toBehind.expectedIf
        (contents (leaves reports tokens).reports rest).value.isEmpty (.nestedContent style)
    rw [span_of_openParen style loc hopen]
    dsimp only
    split
    · next closed rest' hclose =>
      rw [hclose] at hread ⊢
      exact (hread.trans (Leads.cons _ (.refl _ _ rest'))).ofContent
    · refine (hread.trans (.expected _ (.nestedEnd opened) _)).ofContent.mono id fun h => ?_
      exact h.content_of_head (beginsContent_head_contents _ rest)
  case plain =>
    intro style loc reports tokens hne hstyle
    have hleaves := leads_leaves reports tokens
    rw [span_of_not_openParen style loc hne]
    dsimp only
    split
    · exact leads_addEmptySpan reports tokens hstyle hleaves
    · exact (hleaves.cons _).ofContent

theorem leads_paragraph (style : String) (loc : Location) (token : Token) :
    Leads IsBehind IsBehind reports (token :: tokens) (paragraph style loc reports tokens).reports
      (paragraph style loc reports tokens).rest := by
  have hread := ((leads_contents_and_span.1 reports tokens).cons token).toBehind.expectedIf
    (contents reports tokens).value.isEmpty (.paragraphContent style)
  unfold paragraph
  dsimp only
  split
  · next versionLoc rest hrest =>
    rw [hrest] at hread ⊢
    exact hread.trans (.of_suffix _ (List.suffix_cons _ rest))
  · exact hread

theorem leads_body :
    Leads IsBehind IsBehind reports tokens (body reports tokens).reports
      (body reports tokens).rest := by
  fun_induction body reports tokens with
  | case1 reports => exact .expected reports .bodyEnd []
  | case2 reports token rest hclose => exact .of_suffix reports (List.suffix_cons token rest)
  | case3 reports token rest hclose style hstyle paragraph hle tail ih =>
    exact (leads_paragraph reports rest style token.location token).trans ih
  | case4 reports token rest hclose hstyle hle ih =>
    refine (Leads.expected reports .paragraph (token :: rest)).trans (.trans (.of_suffix _ ?_) ih)
    exact (List.dropWhile_suffix _).trans (List.suffix_cons token rest)

/-! ### Page blocks -/

theorem leads_keyword_leaf (keyword : LeafKeyword) (token : Token) :
    Leads IsBehind IsBehind reports (token :: tokens)
      (leaf keyword token.location reports tokens).reports
      (leaf keyword token.location reports tokens).rest :=
  ((leads_leaf reports tokens keyword token.location).cons token).toBehind

theorem leads_references :
    Leads IsBehind IsBehind reports tokens (references reports tokens).reports
      (references reports tokens).rest := by
  fun_induction references reports tokens with
  | case1 | case3 | case4 | case5 => exact .refl _ _ _
  | case2 reports token rest word hkind keyword hword hreference leaf hle tail ih =>
    exact (leads_keyword_leaf reports rest keyword token).trans ih

theorem leads_library :
    Leads IsBehind IsBehind reports tokens (library reports tokens).reports
      (library reports tokens).rest := by
  fun_cases library reports tokens with
  | case1 loc n loc' rest =>
    exact .of_suffix reports ((List.suffix_cons _ rest).trans (List.suffix_cons _ _))
  | case2 loc rest hint =>
    exact (Leads.of_suffix reports (List.suffix_cons _ rest)).trans (.expected reports _ rest)
  | case3 => exact .refl _ _ _

theorem leads_lookup (loc : Location) :
    Leads IsBehind IsBehind reports tokens (lookup loc reports tokens).reports
      (lookup loc reports tokens).rest :=
  (leads_references reports tokens).trans (leads_library _ _)

theorem leads_slotItems :
    Leads IsBehind IsBehind reports tokens (slotItems reports tokens).reports
      (slotItems reports tokens).rest := by
  fun_induction slotItems reports tokens with
  | case1 | case5 | case6 => exact .refl _ _ _
  | case2 reports token rest lookup hle tail hkind ih =>
    refine (Leads.of_suffix reports (List.suffix_cons token rest)).trans ?_
    exact (leads_lookup reports rest token.location).trans ih
  | case3 reports token rest name hkind hname hle tail ih =>
    exact (Leads.of_suffix reports (List.suffix_cons token rest)).trans ih
  | case4 reports token rest leaf hle tail hkind ih =>
    exact (leads_keyword_leaf reports rest .nid token).trans ih

theorem leads_positions :
    Leads IsBehind IsBehind reports tokens (positions reports tokens).reports
      (positions reports tokens).rest := by
  fun_induction positions reports tokens with
  | case1 | case2 | case4 => exact .refl _ _ _
  | case3 reports token rest slot hkind hnext position hle tail ih =>
    refine (Leads.of_suffix reports (List.suffix_cons token rest)).trans (.trans ?_ ih)
    exact (leads_slotItems reports rest).expectedIf _ _

theorem leads_pageBlock (edge : PageEdge) (parity : Parity) (loc : Location) :
    Leads IsBehind IsBehind reports tokens (pageBlock edge parity loc reports tokens).reports
      (pageBlock edge parity loc reports tokens).rest :=
  (leads_positions reports tokens).expectedIf _ _

/-! ### Items -/

theorem leads_property (name : String) (loc : Location) :
    Leads IsBehind IsBehind reports tokens (property name loc reports tokens).reports
      (property name loc reports tokens).rest := by
  unfold property
  split
  · next s valueLoc rest => exact .of_suffix reports (List.suffix_cons _ rest)
  · next n valueLoc rest => exact .of_suffix reports (List.suffix_cons _ rest)
  · exact .expected reports .propertyValue _

theorem suffix_assignment (token equals : Token) (rest : List Token) :
    rest <:+ token :: equals :: rest :=
  (List.suffix_cons equals rest).trans (List.suffix_cons token _)

theorem leads_items :
    Leads IsBehind IsBehind reports tokens (items reports tokens).reports
      (items reports tokens).rest := by
  fun_induction items reports tokens with
  | case1 => exact .refl _ _ _
  | case2 reports loc rest body hle tail ih =>
    refine (Leads.of_suffix reports (List.suffix_cons _ rest)).trans ?_
    exact (leads_body reports rest).trans ih
  | case3 reports word loc loc' rest edge parity hword block hle tail ih =>
    refine (Leads.of_suffix reports (suffix_assignment _ _ rest)).trans ?_
    exact (leads_pageBlock reports rest edge parity loc).trans ih
  | case4 reports word loc loc' rest hword property hle tail ih =>
    refine (Leads.of_suffix reports (suffix_assignment _ _ rest)).trans ?_
    exact (leads_property reports rest word loc).trans ih
  | case5 reports token rest hopen hassignment hle ih =>
    refine (Leads.expected reports .item (token :: rest)).trans (.trans (.of_suffix _ ?_) ih)
    exact (passesOver_skipToItem rest).suffix.trans (List.suffix_cons token rest)

end Reading

namespace Template

theorem leads_ofText (text : String) :
    let scan := Scan.ofText text
    let reading := Reading.items (.none scan.stop) scan.tokens
    Leads IsBehind IsBehind (.none scan.stop) scan.tokens reading.reports [] := by
  intro scan reading
  have hread := Reading.leads_items (.none scan.stop) scan.tokens
  rwa [Reading.rest_items] at hread

theorem pairwise_follows_errors_ofText (text : String) :
    (ofText text).errors.Pairwise fun earlier later => later.Follows earlier := by
  have hbehind := Reports.isBehind_none (Scan.pairwise_lt_locations_ofText text)
  exact List.pairwise_reverse.mpr ((leads_ofText text).holds hbehind).follows

/-- No two syntax errors of a text have one location, except that a span without content is reported
at its style also where that has been found in place of a string or an integer. All other errors are
found in the order of their locations. -/
theorem errors_ne_or_repeats_ofText (text : String) :
    (ofText text).errors.Pairwise (fun earlier later =>
        earlier.location ≠ later.location ∨ later.Repeats earlier) ∧
      (ofText text).errors.Pairwise (fun earlier later =>
        earlier.location < later.location ∨ later.IsOfEmptySpan) := by
  have hfollows := pairwise_follows_errors_ofText text
  exact ⟨hfollows.imp SyntaxError.Follows.ne_or_repeats, hfollows.imp (Or.imp_right And.left)⟩

/-- A span without content in place of the string of a leaf. -/
def repeatedText : String := "\x7b p.a nid span.x \x7d"

theorem not_nodup_locations_repeatedText :
    ¬((ofText repeatedText).errors.map SyntaxError.location).Nodup := by
  decide +kernel

end Template

end Typikon
