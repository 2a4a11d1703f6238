/-!
The properties that a template can set.
-/

namespace Typikon

inductive TextProperty where
  | id
  | type
  | status
  | calendar
  | htmlCss
  | pdfCss
  | title
deriving DecidableEq

inductive NumberProperty where
  | month
  | day
  | year
  | pageNumber
deriving DecidableEq

inductive Property where
  | text (property : TextProperty)
  | number (property : NumberProperty)
deriving DecidableEq

namespace Property

def word : Property → String
  | .text .id => "ID"
  | .text .type => "Type"
  | .text .status => "Status"
  | .text .calendar => "Calendar"
  | .text .htmlCss => "HtmlCss"
  | .text .pdfCss => "PdfCss"
  | .text .title => "Title"
  | .number .month => "Month"
  | .number .day => "Day"
  | .number .year => "Year"
  | .number .pageNumber => "SetPageNumber"

def all : List Property :=
  [.text .id, .text .type, .text .status, .text .calendar, .text .htmlCss, .text .pdfCss,
    .text .title, .number .month, .number .day, .number .year, .number .pageNumber]

/-- The words of all properties, as a message lists them. -/
def words : String :=
  ", ".intercalate (all.map word)

def ofWord? (text : String) : Option Property :=
  all.find? fun property => property.word = text

end Property

end Typikon
