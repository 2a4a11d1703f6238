import Typikon.Text.Vocabulary

/-!
The two reckonings of the calendar: their names, leap years and month lengths.
-/

namespace Typikon

inductive Reckoning where
  | gregorian
  | julian
deriving DecidableEq

namespace Reckoning

def word : Reckoning → String
  | .gregorian => "gregorian"
  | .julian => "julian"

/-- The name with a capital, as headings have it. -/
def title : Reckoning → String
  | .gregorian => "Gregorian"
  | .julian => "Julian"

def vocabulary : Text.Vocabulary Reckoning :=
  ⟨"calendar type", [.gregorian, .julian], word⟩

def IsLeapYear : Reckoning → Int → Prop
  | .gregorian, year => year % 4 = 0 ∧ (year % 100 ≠ 0 ∨ year % 400 = 0)
  | .julian, year => year % 4 = 0

instance : (r : Reckoning) → (year : Int) → Decidable (r.IsLeapYear year)
  | .gregorian, year =>
    inferInstanceAs (Decidable (year % 4 = 0 ∧ (year % 100 ≠ 0 ∨ year % 400 = 0)))
  | .julian, year => inferInstanceAs (Decidable (year % 4 = 0))

/-- The days of a month. Numbers that are no month count as months of 31 days. -/
def daysInMonth (r : Reckoning) (year : Int) (month : Nat) : Nat :=
  match month with
  | 4 | 6 | 9 | 11 => 30
  | 2 => if r.IsLeapYear year then 29 else 28
  | _ => 31

end Reckoning

end Typikon
