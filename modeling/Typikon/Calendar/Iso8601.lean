import Typikon.Calendar.Conversion
import Typikon.Text.Blank
import Typikon.Text.Decimal

/-!
The ISO 8601 text of a civil date, `YYYY-MM-DD`. Years outside 0 to 9999 carry a sign. Reading is
more lenient than writing: white space may stand before each number and hyphen and at the end, month
and day may have one digit, and a year after a sign may have any number of digits.
-/

namespace Typikon.CivilDate

def yearText (year : Int) : String :=
  if 0 ≤ year ∧ year ≤ 9999 then Text.Decimal.padded 4 year.toNat
  else (if year < 0 then "-" else "+") ++ Text.Decimal.padded 4 year.natAbs

def text (date : CivilDate) : String :=
  let label := Reckoning.gregorian.label date
  yearText label.year ++ "-" ++ Text.Decimal.padded 2 label.month ++ "-" ++
    Text.Decimal.padded 2 label.day

/-- Takes the digits at the front of a text, at least one and at most `limit`. -/
def takeNumber? (limit : Nat) (s : List Char) : Option (Nat × List Char) :=
  let digits := (s.take limit).takeWhile Char.isDigit
  (Text.Decimal.nat? digits).map fun n => (n, s.drop digits.length)

/-- Takes a year: up to four digits, or a sign and any number of digits. -/
def takeYear? (s : List Char) : Option (Int × List Char) :=
  match Text.trimLeft s with
  | '-' :: s => (takeNumber? s.length s).map fun (n, rest) => (-(n : Int), rest)
  | '+' :: s => (takeNumber? s.length s).map fun (n, rest) => ((n : Int), rest)
  | s => (takeNumber? 4 s).map fun (n, rest) => ((n : Int), rest)

/-- Takes a hyphen and up to two digits. -/
def takePart? (s : List Char) : Option (Nat × List Char) :=
  match Text.trimLeft s with
  | '-' :: s => takeNumber? 2 (Text.trimLeft s)
  | _ => none

def ofText? (text : String) : Option CivilDate := do
  let (year, s) ← takeYear? text.toList
  let (month, s) ← takePart? s
  let (day, s) ← takePart? s
  if Text.trimLeft s ≠ [] then none
  (Reckoning.gregorian.toCivil ⟨year, month, day⟩).toOption

end Typikon.CivilDate
