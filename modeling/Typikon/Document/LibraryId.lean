import Typikon.Text.Blank

/-!
Identifiers of libraries: a language, a country and a realm, in lowercase.
-/

namespace Typikon

structure LibraryId where
  language : String
  country : String
  realm : String
deriving DecidableEq

structure LibraryIdError where
  text : String
deriving DecidableEq

namespace LibraryIdError

def message (e : LibraryIdError) : String :=
  s!"invalid library \"{e.text}\", expected language_country_realm"

end LibraryIdError

namespace LibraryId

def text (id : LibraryId) : String :=
  id.language ++ "_" ++ id.country ++ "_" ++ id.realm

def isPart (part : List Char) : Bool :=
  !part.isEmpty && part.all Char.isAlphanum

def lowered (part : List Char) : String :=
  String.ofList (part.map Char.toLower)

/-- Reads an identifier in any case, white space around it aside. -/
def read (text : String) : Except LibraryIdError LibraryId :=
  match (Text.trimChars text.toList).splitOn '_' with
  | [language, country, realm] =>
    if isPart language && isPart country && isPart realm then
      .ok ⟨lowered language, lowered country, lowered realm⟩
    else .error ⟨text⟩
  | _ => .error ⟨text⟩

def ofParts (language country realm : String) : Except LibraryIdError LibraryId :=
  read (language ++ "_" ++ country ++ "_" ++ realm)

/-- The order of the languages, then of the countries, then of the realms. -/
def le (a b : LibraryId) : Bool :=
  if a.language ≠ b.language then a.language < b.language
  else if a.country ≠ b.country then a.country < b.country
  else a.realm ≤ b.realm

end LibraryId

end Typikon
