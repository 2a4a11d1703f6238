import Typikon.Calendar.Error
import Typikon.Document.Resolution
import Typikon.Draft.Property

/-!
What can be wrong with what a template says, apart from its syntax.
-/

namespace Typikon

inductive Problem where
  | emptyId
  | idWithoutSlash (id : String)
  | keyword (cause : Text.UnknownKeyword)
  | date (cause : CalendarError)
  | monthOutOfRange (month : Int)
  | dayOutOfRange (day : Int)
  | yearOutOfRange (year : Int)
  | pageNumberOutOfRange (number : Int)
  | unknownProperty (name : String)
  | textExpected (name : String) (value : Value)
  | numberExpected (name : String) (value : Value)
  | blockWithinBlock
  | blockEndsUnbegun
  | blockUnended
  | slotOutsideBlock (slot : String)
  | unknownDirective (name : String)
  | directiveOutsideSlot (name : String)
  | lookupOutsideSlot
  | libraryOutOfRange (number : Int)
  | libraryMissing
  | lookupEmpty
  | lookupEndsUnbegun
  | lookupUnended
  | paragraphWithinParagraph
  | paragraphEndsUnbegun
  | paragraphUnended
  | spanOutsideParagraph (style : String)
  | spanEndsUnbegun
  | spanUnended
  | spanOutlastsParagraph
  | reference (cause : ReferenceProblem)
  | unfitForLookup
  | unfitForSlot
  | leafOutsideParagraph (raw : String)
  | serviceWithoutDate
deriving DecidableEq

namespace Problem

def message : Problem → String
  | .emptyId => "ID cannot be empty"
  | .idWithoutSlash id => s!"expecting at least one forward slash in ID path \"{id}\""
  | .keyword cause => cause.message
  | .date cause => cause.message
  | .monthOutOfRange month => s!"invalid Month {month}, expected value between 1 and 12"
  | .dayOutOfRange day => s!"invalid Day {day}, expected value between 1 and 31"
  | .yearOutOfRange year => s!"invalid Year {year}, expected value between 1583 and 9999"
  | .pageNumberOutOfRange number =>
    s!"invalid SetPageNumber {number}, expected a value of 1 or more"
  | .unknownProperty name => s!"unknown property '{name}', expected one of {Property.words}"
  | .textExpected name value => s!"invalid {name} {value.text}, expected a quoted string"
  | .numberExpected name value => s!"invalid {name} {value.text}, expected an integer"
  | .blockWithinBlock => "page header or footer starts before the previous one ends"
  | .blockEndsUnbegun => "unexpected end of page header or footer"
  | .blockUnended => "page header or footer not closed"
  | .slotOutsideBlock slot => s!"slot '{slot}' outside a page header or footer"
  | .unknownDirective name =>
    s!"unknown directive @{name}, expected one of @Date, @PageNbr, @Lookup"
  | .directiveOutsideSlot name => s!"directive @{name} outside a header/footer slot"
  | .lookupOutsideSlot => "@Lookup outside a header/footer slot"
  | .libraryOutOfRange number => s!"invalid language number {number}, expected 1, 2, or 3"
  | .libraryMissing => "@Lookup requires a language number: lang 1, 2, or 3"
  | .lookupEmpty => "@Lookup requires at least one sid or rid"
  | .lookupEndsUnbegun => "unexpected end of @Lookup"
  | .lookupUnended => "@Lookup not closed"
  | .paragraphWithinParagraph => "paragraph starts before the previous one ends"
  | .paragraphEndsUnbegun => "unexpected end of paragraph"
  | .paragraphUnended => "paragraph not closed"
  | .spanOutsideParagraph style => s!"span '{style}' outside a paragraph"
  | .spanEndsUnbegun => "unexpected end of span"
  | .spanUnended => "span not closed"
  | .spanOutlastsParagraph => "span not closed before end of paragraph"
  | .reference cause => cause.message
  | .unfitForLookup => "@Lookup accepts only sid and rid references"
  | .unfitForSlot => "only nid, @Date, @PageNbr, and @Lookup may appear in a header/footer slot"
  | .leafOutsideParagraph raw => s!"'{raw}' outside a paragraph"
  | .serviceWithoutDate => "service template requires Month and Day properties"

end Problem

end Typikon
