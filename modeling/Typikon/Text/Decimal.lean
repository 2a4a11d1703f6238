/-!
Whole numbers in decimal notation. Only the ASCII digits count as digits.
-/

namespace Typikon.Text.Decimal

def nat? (s : List Char) : Option Nat :=
  if s ≠ [] ∧ s.all Char.isDigit then some (Nat.ofDigitChars 10 s 0) else none

def int? : List Char → Option Int
  | '-' :: s => (nat? s).map fun n => -(n : Int)
  | '+' :: s => (nat? s).map fun n => (n : Int)
  | s => (nat? s).map fun n => (n : Int)

def IsInt64 (n : Int) : Prop :=
  -9223372036854775808 ≤ n ∧ n ≤ 9223372036854775807

instance (n : Int) : Decidable (IsInt64 n) :=
  inferInstanceAs (Decidable (_ ∧ _))

/-- Reads an integer, refusing those that 64 bits do not hold. -/
def int64? (s : List Char) : Option Int :=
  (int? s).filter fun n => IsInt64 n

/-- The digits of a number, with zeros in front up to a width. -/
def padded (width n : Nat) : String :=
  String.ofList ((Nat.toDigits 10 n).leftpad width '0')

theorem nat?_toDigits (n : Nat) : nat? (Nat.toDigits 10 n) = some n := by
  have hdigits : (Nat.toDigits 10 n).all Char.isDigit = true :=
    List.all_eq_true.2 fun _ hc => Nat.isDigit_of_mem_toDigits (by decide) (by decide) hc
  simp [nat?, hdigits, Nat.toDigits_ne_nil, Nat.ofDigitChars_ten_toDigits]

end Typikon.Text.Decimal
