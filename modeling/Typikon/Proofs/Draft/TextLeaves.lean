import Typikon.Proofs.Draft.Entered

/-!
The leaves of the text. Events that come in any order move what they find open: a span outlasts its
paragraph, a paragraph begins within a span, and what was never left is closed at the end. None of
this loses a leaf that was entered in a paragraph and outside a lookup, and none of it changes the
order of the leaves.
-/

namespace Typikon

/-! ### Leaves among events -/

/-- Whether a paragraph and a lookup have been entered and not left since. -/
structure Surroundings where
  paragraph : Bool
  lookup : Bool

namespace Surroundings

def outermost : Surroundings :=
  ⟨false, false⟩

def after (s : Surroundings) : Event → Surroundings
  | .enter _ (.group (.paragraph _ _)) => { s with paragraph := true }
  | .exit _ (.group (.paragraph _ _)) => { s with paragraph := false }
  | .enter _ (.group (.lookup _)) => { s with lookup := true }
  | .exit _ (.group (.lookup _)) => { s with lookup := false }
  | _ => s

end Surroundings

namespace Event

def content? : Event → Option Content
  | .enter _ (.atom (.content content)) => some content
  | _ => none

def paragraphStyle? : Event → Option String
  | .enter _ (.group (.paragraph style _)) => some style
  | _ => none

end Event

/-- A leaf that stands in no lookup: the piece of the text that it comes to, and whether a paragraph
is open where it stands. -/
structure TextLeaf where
  piece : Piece
  inParagraph : Bool
deriving DecidableEq

namespace TextLeaf

def ofContent (t : Dating) (s : Surroundings) (content : Content) : TextLeaf :=
  ⟨.leaf content.style (Resolution.ofContent t.day content).reference, s.paragraph⟩

/-- The leaf that content is, if there is any and it does not go into a lookup. -/
def ofContent? (t : Dating) (s : Surroundings) (content : Option Content) : Option TextLeaf :=
  if s.lookup then none else content.map (ofContent t s)

/-- The leaves that events enter outside lookups. -/
def ofEvents (t : Dating) (s : Surroundings) : List Event → List TextLeaf
  | [] => []
  | event :: events =>
    (ofContent? t s event.content?).toList ++ ofEvents (t.afterEvent event) (s.after event) events

/-- Some of the leaves are kept, in their order, and among them all that stand in a paragraph. -/
structure Keeps (kept entered : List TextLeaf) : Prop where
  sublist : kept.Sublist entered
  filter_eq : kept.filter inParagraph = entered.filter inParagraph

namespace Keeps

variable {kept entered first second : List TextLeaf}

theorem refl (leaves : List TextLeaf) : Keeps leaves leaves :=
  ⟨.refl leaves, rfl⟩

theorem append (h : Keeps kept entered) (h' : Keeps first second) :
    Keeps (kept ++ first) (entered ++ second) where
  sublist := h.sublist.append h'.sublist
  filter_eq := by rw [List.filter_append, List.filter_append, h.filter_eq, h'.filter_eq]

theorem trans (h : Keeps first kept) (h' : Keeps kept entered) : Keeps first entered :=
  ⟨h.sublist.trans h'.sublist, h.filter_eq.trans h'.filter_eq⟩

/-- Leaves that stand in no paragraph need not be kept. -/
theorem nil_of_forall (h : ∀ leaf ∈ entered, leaf.inParagraph = false) : Keeps [] entered where
  sublist := List.nil_sublist entered
  filter_eq := by
    symm
    apply List.filter_eq_nil_iff.mpr
    intro leaf hmem
    rw [h leaf hmem]
    exact Bool.false_ne_true

theorem of_append (h : Keeps (first ++ second) entered)
    (hsecond : ∀ leaf ∈ second, leaf.inParagraph = false) : Keeps first entered := by
  have hkeeps := ((refl first).append (nil_of_forall hsecond)).trans h
  rwa [List.append_nil] at hkeeps

end Keeps

end TextLeaf

/-! ### Pieces of a body -/

namespace Span

@[simp]
theorem pieces_addAll (span : Span) (more : List Span) :
    (span.addAll more).pieces = span.pieces ++ piecesOfAll more := by
  cases span
  simp [addAll, pieces]

end Span

namespace Body

def surroundings (b : Body) : Surroundings :=
  ⟨b.paragraph.isSome, b.lookup⟩

/-- The styles of the paragraphs, closed or open. -/
def styles (b : Body) : List String :=
  b.closed.map Paragraph.style ++ (b.paragraph.map Paragraph.style).toList

def closedPieces (b : Body) : List Piece :=
  b.closed.flatMap Paragraph.pieces

/-- The pieces in what is open, in the order that they will have when it is closed. -/
def openPieces (b : Body) : List Piece :=
  b.paragraph.toList.flatMap Paragraph.pieces ++ Span.piecesOfAll b.spans.reverse

@[simp]
theorem surroundings_attachAll (b : Body) (spans : List Span) :
    (b.attachAll spans).surroundings = b.surroundings := by
  unfold attachAll
  split
  · rfl
  next hparagraph => simp [surroundings, hparagraph]
  · rfl

theorem surroundings_addLeaf (b : Body) (content : Content) :
    (b.addLeaf content).surroundings = b.surroundings := by
  unfold addLeaf
  split
  · rfl
  · exact surroundings_attachAll b _

theorem surroundings_closeSpan (b : Body) : b.closeSpan.surroundings = b.surroundings := by
  unfold closeSpan
  split
  · rfl
  next span outer hspans => exact surroundings_attachAll _ [span]

theorem surroundings_openParagraph (b : Body) (style : String) :
    (b.openParagraph style).surroundings = { b.surroundings with paragraph := true } := by
  unfold openParagraph
  split <;> rfl

theorem surroundings_event (b : Body) (event : Event) :
    (b.event event).surroundings = b.surroundings.after event := by
  match event with
  | .enter _ (.atom (.property _ _)) | .enter _ (.atom (.directive _)) => rfl
  | .enter _ (.atom (.content content)) => exact surroundings_addLeaf b content
  | .enter _ (.group .template) | .enter _ (.group (.pageBlock _ _)) => rfl
  | .enter _ (.group (.position _)) | .enter _ (.group (.lookup _)) => rfl
  | .enter _ (.group (.paragraph style _)) => exact surroundings_openParagraph b style
  | .enter _ (.group (.span _)) => rfl
  | .exit _ (.atom _) | .exit _ (.group .template) | .exit _ (.group (.pageBlock _ _)) => rfl
  | .exit _ (.group (.position _)) | .exit _ (.group (.lookup _)) => rfl
  | .exit _ (.group (.paragraph _ version)) =>
    change (if b.paragraph.isSome then b.closeParagraph version else b).surroundings = _
    split
    · rfl
    next hnone => simp [Surroundings.after, surroundings, hnone]
  | .exit _ (.group (.span _)) => exact surroundings_closeSpan b

/-- What can become of a body by an event that enters some content or some paragraph or neither. -/
inductive Changes (b : Body) : Option Content → Option String → Body → Prop
  | pass {next : Body} (closed : next.closed = b.closed) (paragraph : next.paragraph = b.paragraph)
    (spans : next.spans = b.spans) : Changes b none none next
  | leaf (content : Content) : Changes b (some content) none (b.addLeaf content)
  | openParagraph (style : String) : Changes b none (some style) (b.openParagraph style)
  | closeParagraph (version : Bool) (h : b.paragraph.isSome) :
    Changes b none none (b.closeParagraph version)
  | openSpan (style : String) : Changes b none none (b.openSpan style)
  | closeSpan : Changes b none none b.closeSpan

theorem changes_event (b : Body) (event : Event) :
    b.Changes event.content? event.paragraphStyle? (b.event event) := by
  match event with
  | .enter _ (.atom (.property _ _)) | .enter _ (.atom (.directive _)) => exact .pass rfl rfl rfl
  | .enter _ (.atom (.content content)) => exact .leaf content
  | .enter _ (.group .template) | .enter _ (.group (.pageBlock _ _)) => exact .pass rfl rfl rfl
  | .enter _ (.group (.position _)) | .enter _ (.group (.lookup _)) => exact .pass rfl rfl rfl
  | .enter _ (.group (.paragraph style _)) => exact .openParagraph style
  | .enter _ (.group (.span style)) => exact .openSpan style
  | .exit _ (.atom _) | .exit _ (.group .template) => exact .pass rfl rfl rfl
  | .exit _ (.group (.pageBlock _ _)) | .exit _ (.group (.position _)) => exact .pass rfl rfl rfl
  | .exit _ (.group (.lookup _)) => exact .pass rfl rfl rfl
  | .exit _ (.group (.paragraph _ version)) =>
    change b.Changes none none (if b.paragraph.isSome then b.closeParagraph version else b)
    split
    next hsome => exact .closeParagraph version hsome
    · exact .pass rfl rfl rfl
  | .exit _ (.group (.span _)) => exact .closeSpan

/-! ### Paragraphs are kept -/

theorem styles_attachAll (b : Body) (spans : List Span) :
    (b.attachAll spans).styles = b.styles := by
  unfold attachAll
  split
  · rfl
  next hparagraph => simp [styles, hparagraph]
  · rfl

theorem styles_closeParagraph (b : Body) (version : Bool) :
    (b.closeParagraph version).styles = b.styles := by
  cases hparagraph : b.paragraph <;> simp [closeParagraph, styles, hparagraph]

theorem styles_openParagraph (b : Body) (style : String) :
    (b.openParagraph style).styles = b.styles ++ [style] := by
  have hclose := b.styles_closeParagraph false
  unfold openParagraph
  split
  · rw [← hclose]
    simp [styles, closeParagraph, Paragraph.empty]
  next hnone => simp [styles, Option.not_isSome_iff_eq_none.mp hnone, Paragraph.empty]

/-- A paragraph that is entered is there from then on, after those that were entered before. -/
theorem Changes.styles_eq {b next : Body} {content : Option Content} {style : Option String}
    (h : b.Changes content style next) : next.styles = b.styles ++ style.toList := by
  cases h with
  | pass hclosed hparagraph hspans =>
    rw [styles, hclosed, hparagraph, Option.toList_none, List.append_nil, styles]
  | leaf content =>
    rw [Option.toList_none, List.append_nil, addLeaf]
    split
    · rfl
    · exact styles_attachAll b _
  | openParagraph style => exact styles_openParagraph b style
  | closeParagraph version hsome =>
    rw [styles_closeParagraph, Option.toList_none, List.append_nil]
  | openSpan style =>
    rw [Option.toList_none, List.append_nil]
    rfl
  | closeSpan =>
    rw [Option.toList_none, List.append_nil, Body.closeSpan]
    split
    · rfl
    · exact styles_attachAll _ _

theorem styles_events (b : Body) (events : List Event) :
    (b.events events).styles = b.styles ++ events.filterMap Event.paragraphStyle? := by
  induction events generalizing b with
  | nil => rw [events_nil, List.filterMap_nil, List.append_nil]
  | cons event events ih =>
    rw [events_cons, ih, (b.changes_event event).styles_eq, List.append_assoc]
    cases hstyle : event.paragraphStyle? with
    | none => rw [List.filterMap_cons_none hstyle]; rfl
    | some style => rw [List.filterMap_cons_some hstyle]; rfl

theorem map_style_closed_finish (b : Body) :
    b.finish.closed.map Paragraph.style = b.styles := by
  have hclose := b.styles_closeParagraph false
  unfold finish
  split
  · rw [← hclose, styles, closeParagraph, Option.map_none, Option.toList_none, List.append_nil]
  next hnone => simp [styles, Option.not_isSome_iff_eq_none.mp hnone]

/-! ### Leaves are kept -/

theorem closedPieces_attachAll (b : Body) (spans : List Span) :
    (b.attachAll spans).closedPieces = b.closedPieces := by
  unfold attachAll
  split <;> rfl

/-- What is attached comes after all else that is open, if there is something open. -/
theorem openPieces_attachAll {b : Body} (h : ¬b.IsIdle) (spans : List Span) :
    (b.attachAll spans).openPieces = b.openPieces ++ Span.piecesOfAll spans := by
  unfold attachAll
  split
  next parent outer hspans => simp [openPieces, hspans]
  next paragraph hspans hparagraph => simp [openPieces, hspans, hparagraph, Paragraph.pieces]
  next hspans hparagraph => exact absurd ⟨hparagraph, hspans⟩ h

theorem closedPieces_closeParagraph (b : Body) (version : Bool) (h : b.paragraph.isSome) :
    (b.closeParagraph version).closedPieces = b.closedPieces ++ b.openPieces := by
  obtain ⟨paragraph, hparagraph⟩ := Option.isSome_iff_exists.mp h
  simp [closeParagraph, closedPieces, openPieces, hparagraph, Paragraph.pieces,
    Span.piecesOfAll_nest]

/-- Of the leaves that were entered, a body keeps some: first those that are settled in closed
paragraphs, then those in what is open. Where no paragraph is open, leaves can be in open spans, but
these were entered outside paragraphs. -/
structure Holds (b : Body) (entered settled opened : List TextLeaf) : Prop where
  keeps : TextLeaf.Keeps (settled ++ opened) entered
  closedPieces : b.closedPieces = settled.map TextLeaf.piece
  openPieces : b.openPieces = opened.map TextLeaf.piece
  loose : b.paragraph = none → ∀ leaf ∈ opened, leaf.inParagraph = false

namespace Holds

variable {b next : Body} {entered settled opened : List TextLeaf}

theorem of_pieces_eq (h : b.Holds entered settled opened)
    (hclosed : next.closedPieces = b.closedPieces) (hopen : next.openPieces = b.openPieces)
    (hparagraph : next.paragraph = none → b.paragraph = none) :
    next.Holds entered settled opened where
  keeps := h.keeps
  closedPieces := hclosed.trans h.closedPieces
  openPieces := hopen.trans h.openPieces
  loose := h.loose ∘ hparagraph

/-- All that is open can be closed. -/
theorem settle (h : b.Holds entered settled opened)
    (hclosed : next.closedPieces = b.closedPieces ++ b.openPieces)
    (hopen : next.openPieces = []) : next.Holds entered (settled ++ opened) [] where
  keeps := by
    rw [List.append_nil]
    exact h.keeps
  closedPieces := by rw [hclosed, h.closedPieces, h.openPieces, List.map_append]
  openPieces := hopen
  loose := fun _ => List.forall_mem_nil _

/-- What is open can be dropped where there is no paragraph to put it into. -/
theorem drop (h : b.Holds entered settled opened) (hnone : b.paragraph = none)
    (hclosed : next.closedPieces = b.closedPieces) (hopen : next.openPieces = []) :
    next.Holds entered settled [] where
  keeps := by
    rw [List.append_nil]
    exact h.keeps.of_append (h.loose hnone)
  closedPieces := hclosed.trans h.closedPieces
  openPieces := hopen
  loose := fun _ => List.forall_mem_nil _

/-- A leaf is put into what is open, unless nothing is. -/
theorem exists_attachAll (h : b.Holds entered settled opened) (leaf : TextLeaf) {span : Span}
    (hpiece : span.pieces = [leaf.piece]) (hleaf : leaf.inParagraph = b.paragraph.isSome) :
    ∃ opened, (b.attachAll [span]).Holds (entered ++ [leaf]) settled opened := by
  have hloose (hnone : b.paragraph = none) : ∀ other ∈ [leaf], other.inParagraph = false := by
    intro other hmem
    rw [List.mem_singleton.mp hmem, hleaf, hnone, Option.isSome_none]
  by_cases hidle : b.IsIdle
  · have hdropped := TextLeaf.Keeps.nil_of_forall (hloose hidle.paragraph)
    rw [hidle.attachAll_eq]
    refine ⟨opened, ?_, h.closedPieces, h.openPieces, h.loose⟩
    have hkeeps := h.keeps.append hdropped
    rwa [List.append_nil] at hkeeps
  · refine ⟨opened ++ [leaf], ?_, ?_, ?_, ?_⟩
    · rw [← List.append_assoc]
      exact h.keeps.append (.refl [leaf])
    · rw [closedPieces_attachAll, h.closedPieces]
    · rw [openPieces_attachAll hidle, h.openPieces, List.map_append]
      simp [hpiece]
    · intro hnone
      have hbefore : b.paragraph = none := by
        have hsame := congrArg Surroundings.paragraph (b.surroundings_attachAll [span])
        simpa [surroundings, hnone] using hsame
      exact List.forall_mem_append.mpr ⟨h.loose hbefore, hloose hbefore⟩

theorem exists_addLeaf (h : b.Holds entered settled opened) (content : Content) :
    ∃ opened, (b.addLeaf content).Holds
      (entered ++ (TextLeaf.ofContent? b.dating b.surroundings (some content)).toList)
      settled opened := by
  unfold addLeaf TextLeaf.ofContent?
  have hlookup : b.surroundings.lookup = b.lookup := rfl
  rw [hlookup]
  cases b.lookup with
  | true =>
    refine ⟨opened, ?_⟩
    rw [if_pos rfl, if_pos rfl, Option.toList_none, List.append_nil]
    exact h
  | false =>
    rw [if_neg Bool.false_ne_true, if_neg Bool.false_ne_true]
    exact h.exists_attachAll (.ofContent b.dating b.surroundings content) (Span.pieces_leaf _ _) rfl

theorem exists_openParagraph (h : b.Holds entered settled opened) (style : String) :
    ∃ settled opened, (b.openParagraph style).Holds entered settled opened := by
  unfold Body.openParagraph
  split
  next hsome =>
    refine ⟨_, _, h.settle ?_ rfl⟩
    exact b.closedPieces_closeParagraph false hsome
  next hnone =>
    refine ⟨settled, opened, h.of_pieces_eq rfl ?_ nofun⟩
    have hparagraph : b.paragraph = none := Option.not_isSome_iff_eq_none.mp hnone
    simp [Body.openPieces, hparagraph, Paragraph.empty, Paragraph.pieces]

theorem exists_closeSpan (h : b.Holds entered settled opened) :
    ∃ opened, b.closeSpan.Holds entered settled opened := by
  unfold Body.closeSpan
  split
  · exact ⟨opened, h⟩
  next span outer hspans =>
    by_cases hidle : IsIdle { b with spans := outer }
    · rw [hidle.attachAll_eq]
      obtain ⟨hparagraph, houter⟩ := hidle
      refine ⟨[], h.drop hparagraph rfl ?_⟩
      simp_all [Body.openPieces]
    · refine ⟨opened, h.of_pieces_eq ?_ ?_ ?_⟩
      · exact closedPieces_attachAll _ _
      · rw [openPieces_attachAll hidle]
        simp [Body.openPieces, hspans]
      · intro hnone
        have hsame := congrArg Surroundings.paragraph
          (surroundings_attachAll { b with spans := outer } [span])
        simpa [surroundings, hnone] using hsame

end Holds

/-- Whatever an event changes, the leaves go on being kept. -/
theorem Changes.exists_holds {b next : Body} {content : Option Content} {style : Option String}
    {entered settled opened : List TextLeaf} (h : b.Changes content style next)
    (hholds : b.Holds entered settled opened) :
    ∃ settled opened, next.Holds
      (entered ++ (TextLeaf.ofContent? b.dating b.surroundings content).toList) settled opened := by
  have hnone : (TextLeaf.ofContent? b.dating b.surroundings none).toList = [] := by
    unfold TextLeaf.ofContent?
    split <;> rfl
  cases h with
  | pass hclosed hparagraph hspans =>
    rw [hnone, List.append_nil]
    refine ⟨settled, opened, hholds.of_pieces_eq ?_ ?_ hparagraph.symm.trans⟩
    · rw [closedPieces, hclosed, closedPieces]
    · rw [openPieces, hparagraph, hspans, openPieces]
  | leaf content => exact ⟨settled, hholds.exists_addLeaf content⟩
  | openParagraph style =>
    rw [hnone, List.append_nil]
    exact hholds.exists_openParagraph style
  | closeParagraph version hsome =>
    rw [hnone, List.append_nil]
    exact ⟨_, _, hholds.settle (b.closedPieces_closeParagraph version hsome) rfl⟩
  | openSpan style =>
    rw [hnone, List.append_nil]
    refine ⟨settled, opened, hholds.of_pieces_eq rfl ?_ id⟩
    simp [openPieces, Body.openSpan]
  | closeSpan =>
    rw [hnone, List.append_nil]
    exact ⟨settled, hholds.exists_closeSpan⟩

theorem exists_holds_events {b : Body} {entered settled opened : List TextLeaf}
    (h : b.Holds entered settled opened) (events : List Event) :
    ∃ settled opened, (b.events events).Holds
      (entered ++ TextLeaf.ofEvents b.dating b.surroundings events) settled opened := by
  induction events generalizing b entered settled opened with
  | nil =>
    rw [TextLeaf.ofEvents, List.append_nil]
    exact ⟨settled, opened, h⟩
  | cons event events ih =>
    obtain ⟨settled, opened, hnext⟩ := (b.changes_event event).exists_holds h
    have hlast := ih hnext
    rwa [List.append_assoc, dating_event, surroundings_event, ← TextLeaf.ofEvents] at hlast

/-- In the end an open paragraph is closed, and leaves in open spans are lost only if there is
none. -/
theorem Holds.exists_keeps_finish {b : Body} {entered settled opened : List TextLeaf}
    (h : b.Holds entered settled opened) :
    ∃ kept, TextLeaf.Keeps kept entered ∧ b.finish.closedPieces = kept.map TextLeaf.piece := by
  unfold finish
  split
  next hsome =>
    refine ⟨settled ++ opened, h.keeps, ?_⟩
    rw [b.closedPieces_closeParagraph false hsome, h.closedPieces, h.openPieces, List.map_append]
  next hnone =>
    have hloose := h.loose (Option.not_isSome_iff_eq_none.mp hnone)
    exact ⟨settled, h.keeps.of_append hloose, h.closedPieces⟩

end Body

end Typikon
