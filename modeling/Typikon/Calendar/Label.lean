import Typikon.Text.Decimal

/-!
Labels of days: year, month and day of the month.
-/

namespace Typikon

/-- Year, month and day of the month, as some reckoning counts them. -/
structure Label where
  year : Int
  month : Nat
  day : Nat
deriving DecidableEq

namespace Label

/-- Year, month and day joined by hyphens, month and day in two digits. -/
def text (label : Label) : String :=
  s!"{label.year}-{Text.Decimal.padded 2 label.month}-{Text.Decimal.padded 2 label.day}"

end Label

end Typikon
