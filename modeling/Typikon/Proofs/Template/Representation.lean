import Typikon.Proofs.Template.Taking

/-!
Texts without syntax errors are represented in full. The tokens of such a text are those that its
nodes stand for, in the same order, except for punctuation: no production passes over a token
without either putting it into a node or reporting something.
-/

namespace Typikon

open Token.Kind (significant significant_nil significant_cons significant_cons_of_punctuation)

/-! ### Accounting for tokens -/

namespace Reports

/-- Nothing has been reported. -/
structure IsSilent (reports : Reports) : Prop where
  last : reports.last = .none
  errors : reports.errors = []

/-- A token that has been reported is one of the errors. -/
def IsConsistent (reports : Reports) : Prop :=
  reports.errors = [] → reports.last = .none

theorem not_isSilent_add (reports : Reports) (cause : SyntaxError.Cause) (loc : Location) :
    ¬(reports.add cause loc).IsSilent :=
  fun h => List.cons_ne_nil _ _ h.errors

theorem isConsistent_add (reports : Reports) (cause : SyntaxError.Cause) (loc : Location) :
    (reports.add cause loc).IsConsistent :=
  fun h => absurd h (List.cons_ne_nil _ _)

theorem not_isSilent_expected (reports : Reports) (what : Expectation) (tokens : List Token) :
    ¬(reports.expected what tokens).IsSilent := by
  intro h
  unfold expected at h
  dsimp only at h
  split at h
  next hlast =>
    rw [h.last] at hlast
    cases hlast
  · exact absurd h.last (Option.some_ne_none _)

theorem IsConsistent.expected {reports : Reports} (h : reports.IsConsistent) (what : Expectation)
    (tokens : List Token) : (reports.expected what tokens).IsConsistent := by
  unfold Reports.expected
  dsimp only
  split
  · exact h
  · exact fun herrors => absurd herrors (List.cons_ne_nil _ _)

end Reports

/-- Reading goes on from some reports and tokens to others. If nothing is reported then, nothing was
reported before, and the tokens in between say what is accounted for. -/
structure Accounts (kinds : List Token.Kind) (reports : Reports) (tokens : List Token)
    (later : Reports) (rest : List Token) : Prop where
  consistent : reports.IsConsistent → later.IsConsistent
  silent : later.IsSilent → reports.IsSilent
  kinds_eq : later.IsSilent →
    significant (tokens.map Token.kind) = kinds ++ significant (rest.map Token.kind)

namespace Accounts

variable {kinds others : List Token.Kind} {kind : Token.Kind} {reports between later : Reports}
  {tokens left rest : List Token}

theorem refl (reports : Reports) (tokens : List Token) :
    Accounts [] reports tokens reports tokens :=
  ⟨id, id, fun _ => rfl⟩

theorem trans (h : Accounts kinds reports tokens between left)
    (h' : Accounts others between left later rest) :
    Accounts (kinds ++ others) reports tokens later rest where
  consistent := h'.consistent ∘ h.consistent
  silent := h.silent ∘ h'.silent
  kinds_eq := by
    intro hsilent
    rw [h.kinds_eq (h'.silent hsilent), h'.kinds_eq hsilent, List.append_assoc]

theorem cons (hkind : kind.isPunctuation = false) (loc : Location)
    (h : Accounts kinds reports tokens later rest) :
    Accounts (kind :: kinds) reports (⟨kind, loc⟩ :: tokens) later rest where
  consistent := h.consistent
  silent := h.silent
  kinds_eq := by
    intro hsilent
    rw [List.map_cons, significant_cons hkind, h.kinds_eq hsilent, List.cons_append]

theorem punctuation (hkind : kind.isPunctuation = true) (loc : Location)
    (h : Accounts kinds reports tokens later rest) :
    Accounts kinds reports (⟨kind, loc⟩ :: tokens) later rest where
  consistent := h.consistent
  silent := h.silent
  kinds_eq := by
    intro hsilent
    rw [List.map_cons, significant_cons_of_punctuation hkind, h.kinds_eq hsilent]

/-- After a report anything is accounted for, since there is no silence any more. -/
theorem expected (reports : Reports) (tokens : List Token) (what : Expectation)
    (found rest : List Token) (kinds : List Token.Kind) :
    Accounts kinds reports tokens (reports.expected what found) rest where
  consistent h := h.expected what found
  silent h := absurd h (reports.not_isSilent_expected what found)
  kinds_eq h := absurd h (reports.not_isSilent_expected what found)

theorem add (reports : Reports) (tokens : List Token) (cause : SyntaxError.Cause) (loc : Location)
    (rest : List Token) (kinds : List Token.Kind) :
    Accounts kinds reports tokens (reports.add cause loc) rest where
  consistent _ := reports.isConsistent_add cause loc
  silent h := absurd h (reports.not_isSilent_add cause loc)
  kinds_eq h := absurd h (reports.not_isSilent_add cause loc)

/-- Going on without anything to account for. -/
theorem extend (h : Accounts kinds reports tokens between left)
    (h' : Accounts [] between left later rest) : Accounts kinds reports tokens later rest := by
  have htrans := h.trans h'
  rwa [List.append_nil] at htrans

end Accounts

/-- Every step of a reading is accounted for. -/
theorem Takes.accounts {kinds : List Token.Kind} {reports later : Reports}
    {tokens rest : List Token} (h : Takes kinds reports tokens later rest) :
    Accounts kinds reports tokens later rest := by
  induction h with
  | refl reports tokens => exact .refl reports tokens
  | trans _ _ ih ih' => exact ih.trans ih'
  | cons hkind loc _ ih => exact .cons hkind loc ih
  | punctuation hkind loc _ ih => exact .punctuation hkind loc ih
  | expected _ what _ _ _ ih => exact ih.extend (.expected _ _ what _ _ [])
  | add _ cause _ loc ih => exact ih.extend (.add _ _ cause loc _ [])

namespace Template

/-- A template without syntax errors is all that its text says. Without punctuation, the tokens of
the text are those that the items of the template stand for. -/
theorem significant_tokens_ofText {text : String} (h : (ofText text).errors = []) :
    significant ((Scan.ofText text).tokens.map Token.kind) =
      significant (Node.kindsOfAll (ofText text).items) := by
  let scan := Scan.ofText text
  have hread := (Reading.takes_items (Reports.none scan.stop) scan.tokens).accounts
  have herrors := List.reverse_eq_nil_iff.mp h
  have hlast := hread.consistent (fun _ => rfl) herrors
  have haccounted := hread.kinds_eq ⟨hlast, herrors⟩
  rwa [Reading.rest_items, List.map_nil, significant_nil, List.append_nil] at haccounted

/-- A text with every production of the grammar in it. -/
def vespersText : String :=
  "Title = \"Vespers\" Day = -3 PageHeaderOdd = left @Date nid \"Typikon\" " ++
    "center @Lookup sid \"me/title\" rid \"oc*/title\" @Mode 2 lang 2 right @PageNbr " ++
      "\x7b p.hymn nid \"Tone\" span.red sid \"me/text\" " ++
        "(span.bold rid \"oc*/text\" @Day 3 @Mode 1) @Ver p.verse media \"me/audio\" \x7d"

theorem significant_tokens_ofText_vespersText :
    (ofText vespersText).errors = [] ∧
      significant ((Scan.ofText vespersText).tokens.map Token.kind) =
        significant (Node.kindsOfAll (ofText vespersText).items) := by
  have hread : (ofText vespersText).errors = [] := by decide +kernel
  exact ⟨hread, significant_tokens_ofText hread⟩

end Template

end Typikon
