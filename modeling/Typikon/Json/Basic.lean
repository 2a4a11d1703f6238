/-!
JSON values, as far as documents need them: numbers are whole. Objects keep the order of their
fields.
-/

namespace Typikon

inductive Json where
  | null
  | bool (b : Bool)
  | number (n : Int)
  | string (s : String)
  | array (items : List Json)
  | object (fields : List (String × Json))
deriving Inhabited

namespace Json

def string? : Json → Option String
  | .string s => some s
  | _ => none

def bool? : Json → Option Bool
  | .bool b => some b
  | _ => none

/-- Reads an integer from one bound to another. -/
def integerWithin? (low high : Int) : Json → Option Int
  | .number n => if low ≤ n ∧ n ≤ high then some n else none
  | _ => none

/-- Reads a natural number up to a bound. -/
def naturalUpTo? (high : Nat) (j : Json) : Option Nat :=
  (j.integerWithin? 0 high).map Int.toNat

def unsigned8? : Json → Option Nat :=
  naturalUpTo? 255

def unsigned32? : Json → Option Nat :=
  naturalUpTo? 4294967295

def unsigned64? : Json → Option Nat :=
  naturalUpTo? 18446744073709551615

def signed32? : Json → Option Int :=
  integerWithin? (-2147483648) 2147483647

def signed64? : Json → Option Int :=
  integerWithin? (-9223372036854775808) 9223372036854775807

variable {α : Type}

def listOf? (read : Json → Option α) : Json → Option (List α)
  | .array items => items.mapM read
  | _ => none

/-- Reads a value that null may stand for. -/
def nullable? (read : Json → Option α) : Json → Option (Option α)
  | .null => some none
  | j => (read j).map some

def ofOption : Option Json → Json
  | none => .null
  | some j => j

end Json

end Typikon
