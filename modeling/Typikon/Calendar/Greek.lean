import Typikon.Calendar.LiturgicalDay

/-!
Greek labels of dates, as page headers show them.
-/

namespace Typikon

namespace Greek

def months : List String :=
  ["Ἰανουαρίου", "Φεβρουαρίου", "Μαρτίου", "Ἀπριλίου", "Μαΐου", "Ἰουνίου", "Ἰουλίου",
    "Αὐγούστου", "Σεπτεμβρίου", "Ὀκτωβρίου", "Νοεμβρίου", "Δεκεμβρίου"]

def numerals : List String :=
  ["αʹ", "βʹ", "γʹ", "δʹ", "εʹ", "Ϛʹ", "ζʹ", "ηʹ", "θʹ", "ιʹ", "ιαʹ", "ιβʹ", "ιγʹ", "ιδʹ", "ιεʹ",
    "ιϚʹ", "ιζʹ", "ιηʹ", "ιθʹ", "κʹ", "καʹ", "κβʹ", "κγʹ", "κδʹ", "κεʹ", "κϚʹ", "κζʹ", "κηʹ",
    "κθʹ", "λʹ", "λαʹ"]

def month? (month : Nat) : Option String :=
  if month = 0 then none else months[month - 1]?

def numeral? (day : Nat) : Option String :=
  if day = 0 then none else numerals[day - 1]?

def weekday : Weekday → String
  | .monday => "τῆς Δευτέρας"
  | .tuesday => "τῆς Τρίτης"
  | .wednesday => "τῆς Τετάρτης"
  | .thursday => "τῆς Πέμπτης"
  | .friday => "τῆς Παρασκευῆς"
  | .saturday => "τοῦ Σαββάτου"
  | .sunday => "τῆς Κυριακῆς"

end Greek

def LiturgicalDay.greekDate (d : LiturgicalDay) : String :=
  Greek.weekday d.weekday ++ ", " ++ (Greek.numeral? d.day).getD "" ++ " " ++
    (Greek.month? d.month).getD ""

end Typikon
