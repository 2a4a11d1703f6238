import Typikon.Proofs.Template.Covering

/-!
Token texts as a code for tokens. A text that joins the texts of tokens by single spaces is scanned
as these tokens if each of them can be written, and only then: a string with any characters, an
integer of 64 bits, a word that is no integer and does not begin as one, a directive with a name,
and each of the marks.
-/

namespace Typikon

theorem Text.Decimal.isInt64_of_int64?_eq_some {s : List Char} {n : Int}
    (h : int64? s = some n) : IsInt64 n := by
  unfold int64? at h
  exact of_decide_eq_true (Option.filter_eq_some_iff.mp h).2

namespace Token.Kind

/-- What is read from a text is written again by its own text, unless it is an error, which has
none. -/
theorem IsWritten.isRenderable_or {kind : Kind} {text : List Char} (h : kind.IsWritten text) :
    kind.IsRenderable ∨ kind.render = [] := by
  cases kind with
  | integer n => exact .inl (Text.Decimal.isInt64_of_int64?_eq_some h.2)
  | word name => exact .inl h.2
  | directive name => exact .inl h.2
  | error cause => exact .inr rfl
  | string | equals | openBrace | closeBrace | openParen | closeParen => exact .inl trivial

end Token.Kind

namespace Scan

theorem map_fst_listing (scan : Scan) :
    scan.listing.map Prod.fst = (scan.tokens.map Token.kind).map some ++ [none] := by
  rw [listing, List.map_append, List.map_map, List.map_map]
  rfl

/-- Joined by single spaces, tokens are scanned as themselves and the end just when all of them are
renderable. -/
theorem listing_joined_eq_iff (kinds : List Token.Kind) :
    (ofText (String.ofList (Token.Kind.joined kinds))).listing.map Prod.fst =
        kinds.map some ++ [none] ↔
      ∀ kind ∈ kinds, kind.IsRenderable := by
  rw [map_fst_listing, List.append_left_inj, List.map_inj_right fun _ _ => Option.some.inj]
  have htext : ofText (String.ofList (Token.Kind.joined kinds)) =
      ofChars .start (Token.Kind.joined kinds) := by
    rw [ofText, String.toList_ofList]
  constructor
  · intro h kind hmem
    have hor : ∀ other ∈ kinds, other.IsRenderable ∨ other.render = [] := by
      intro other hother
      rw [← h] at hother
      obtain ⟨token, htoken, rfl⟩ := List.mem_map.mp hother
      obtain ⟨s, hwritten⟩ := exists_isWritten_of_mem_ofText htoken
      exact hwritten.isRenderable_or
    rw [htext, map_kind_ofChars_joined_eq_filter .start hor, List.filter_eq_self] at h
    exact of_decide_eq_true (h kind hmem)
  · intro h
    rw [htext]
    exact map_kind_ofChars_joined .start h

example :
    String.ofList (Token.Kind.joined [.word "Title", .equals, .string "a\"b", .integer (-3)]) =
      "Title = \"a\\\"b\" -3" := by
  decide

end Scan

end Typikon
