import Typikon.Draft.Basic

/-!
Setting the properties of a draft. A property is set as a whole or refused as a whole.
-/

namespace Typikon.Draft

/-- The draft with other date properties, which must name a day that exists. -/
def setDates (d : Draft) (dates : DateProperties) : Except Problem Draft :=
  match dates.liturgicalDay d.reference with
  | .error cause => .error (.date cause)
  | .ok day =>
    .ok { d with
      dates
      document := { d.document with
        calendar := dates.calendar
        month := dates.month
        day := dates.day
        year := dates.shownYear day
        liturgicalDay := day } }

def setId (d : Draft) (id : String) : Except Problem Draft :=
  if id = "" then .error .emptyId
  else if '/' ∈ id.toList then .ok { d with document := { d.document with id } }
  else .error (.idWithoutSlash id)

def setText (d : Draft) (text : String) : TextProperty → Except Problem Draft
  | .id => d.setId text
  | .type =>
    match TemplateType.vocabulary.read text with
    | .ok type => .ok { d with document := { d.document with type } }
    | .error cause => .error (.keyword cause)
  | .status =>
    match Status.vocabulary.read text with
    | .ok status => .ok { d with document := { d.document with status } }
    | .error cause => .error (.keyword cause)
  | .calendar =>
    match Reckoning.read text with
    | .ok calendar => d.setDates { d.dates with calendar }
    | .error cause => .error (.date cause)
  | .htmlCss => .ok { d with document := { d.document with htmlCss := text } }
  | .pdfCss =>
    .ok { d with document := { d.document with pdf := { d.document.pdf with css := text } } }
  | .title =>
    .ok { d with document := { d.document with pdf := { d.document.pdf with title := text } } }

/-- Sets a number. The year 0 takes the year back, and a page number is a word of 32 bits. -/
def setNumber (d : Draft) (n : Int) : NumberProperty → Except Problem Draft
  | .month =>
    if 1 ≤ n ∧ n ≤ 12 then d.setDates { d.dates with month := some n.toNat }
    else .error (.monthOutOfRange n)
  | .day =>
    if 1 ≤ n ∧ n ≤ 31 then d.setDates { d.dates with day := some n.toNat }
    else .error (.dayOutOfRange n)
  | .year =>
    if n = 0 then d.setDates { d.dates with year := none }
    else if IsLiturgicalYear n then d.setDates { d.dates with year := some n }
    else .error (.yearOutOfRange n)
  | .pageNumber =>
    if 1 ≤ n ∧ n ≤ 4294967295 then
      .ok { d with
        document := { d.document with pdf := { d.document.pdf with pageNumber := n.toNat } } }
    else .error (.pageNumberOutOfRange n)

def setProperty (d : Draft) (name : String) (value : Value) : Except Problem Draft :=
  match Property.ofWord? name, value with
  | none, _ => .error (.unknownProperty name)
  | some (.text property), .string s => d.setText s property
  | some (.text _), .integer n => .error (.textExpected name (.integer n))
  | some (.number property), .integer n => d.setNumber n property
  | some (.number _), .string s => .error (.numberExpected name (.string s))

/-- Sets a property, or reports why it is refused. -/
def property (d : Draft) (loc : Location) (name : String) (value : Value) : Draft :=
  match d.setProperty name value with
  | .ok next => next
  | .error problem => d.report loc problem

end Typikon.Draft
