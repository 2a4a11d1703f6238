import Typikon.Template.Node
import Typikon.Template.Reading

/-!
Leaves: a keyword and the string after it. A `rid` may go on with overrides of the mode and the day.
-/

namespace Typikon

inductive LeafKeyword where
  | nid
  | rid
  | sid
  | media
deriving DecidableEq

namespace LeafKeyword

def word : LeafKeyword → String
  | .nid => "nid"
  | .rid => "rid"
  | .sid => "sid"
  | .media => "media"

def ofWord? (word : String) : Option LeafKeyword :=
  [nid, rid, sid, media].find? fun keyword => keyword.word == word

end LeafKeyword

namespace OverrideKind

def word : OverrideKind → String
  | .mode => "Mode"
  | .day => "Day"

def ofWord? (word : String) : Option OverrideKind :=
  [mode, day].find? fun kind => kind.word == word

end OverrideKind

namespace Reading

/-- The overrides before tokens. One without an integer is reported and left out. -/
def overrides (reports : Reports) : List Token → Reading (List Override)
  | [] => ⟨[], reports, []⟩
  | token :: rest =>
    match token.kind with
    | .directive name =>
      match OverrideKind.ofWord? name with
      | none => ⟨[], reports, token :: rest⟩
      | some kind =>
        match rest with
        | ⟨.integer value, _⟩ :: rest =>
          let tail := overrides reports rest
          { tail with value := ⟨kind, value, token.location⟩ :: tail.value }
        | rest => overrides (reports.expected .integer rest) rest
    | _ => ⟨[], reports, token :: rest⟩

/-- The leaf whose keyword has been read, unless its string is missing. -/
def leaf (keyword : LeafKeyword) (loc : Location) (reports : Reports) :
    List Token → Reading (Option Node)
  | ⟨.string s, _⟩ :: rest =>
    match keyword with
    | .nid => ⟨some (.atom loc (.content (.literal s))), reports, rest⟩
    | .sid => ⟨some (.atom loc (.content (.absolute s))), reports, rest⟩
    | .media => ⟨some (.atom loc (.content (.media s))), reports, rest⟩
    | .rid =>
      let tail := overrides reports rest
      { tail with value := some (.atom loc (.content (.relative s tail.value))) }
  | tokens => ⟨none, reports.expected (.string keyword.word) tokens, tokens⟩

theorem length_rest_overrides_le (reports : Reports) (tokens : List Token) :
    (overrides reports tokens).rest.length ≤ tokens.length := by
  fun_induction overrides reports tokens with
  | case1 | case2 | case5 => simp
  | case3 | case4 => grind

theorem length_rest_leaf_le (keyword : LeafKeyword) (loc : Location) (reports : Reports)
    (tokens : List Token) : (leaf keyword loc reports tokens).rest.length ≤ tokens.length := by
  unfold leaf
  split
  next s _ rest =>
    have := length_rest_overrides_le reports rest
    cases keyword <;> grind
  next => simp

end Reading

end Typikon
