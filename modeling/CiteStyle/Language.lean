import CiteStyle.Text.LetterCase

/-!
Language tags and which locale suits which language.

A tag is a language, perhaps with a region and more after hyphens or underscores. A locale for a
language suits all its regions; a locale for a region suits that region only. A bare language is
extended to its main region where one is known.
-/

namespace CiteStyle.Language

open Text (lower upper)

/-- The main region of each language that has one, as a whole tag. -/
def primaryDialects : List (String × String) := [
  ("af", "af-ZA"), ("ar", "ar"), ("bg", "bg-BG"), ("ca", "ca-AD"), ("cs", "cs-CZ"),
  ("cy", "cy-GB"), ("da", "da-DK"), ("de", "de-DE"), ("el", "el-GR"), ("en", "en-US"),
  ("es", "es-ES"), ("et", "et-EE"), ("eu", "eu"), ("fa", "fa-IR"), ("fi", "fi-FI"),
  ("fr", "fr-FR"), ("he", "he-IL"), ("hr", "hr-HR"), ("hu", "hu-HU"), ("id", "id-ID"),
  ("is", "is-IS"), ("it", "it-IT"), ("ja", "ja-JP"), ("km", "km-KH"), ("ko", "ko-KR"),
  ("la", "la"), ("lt", "lt-LT"), ("lv", "lv-LV"), ("mn", "mn-MN"), ("nb", "nb-NO"),
  ("nl", "nl-NL"), ("nn", "nn-NO"), ("pl", "pl-PL"), ("pt", "pt-PT"), ("ro", "ro-RO"),
  ("ru", "ru-RU"), ("sk", "sk-SK"), ("sl", "sl-SI"), ("sr", "sr-RS"), ("sv", "sv-SE"),
  ("th", "th-TH"), ("tr", "tr-TR"), ("uk", "uk-UA"), ("vi", "vi-VN"), ("zh", "zh-CN")]

def isSeparator (c : Char) : Bool := c == '-' || c == '_'

/-- The subtags of a tag; there is always at least one. -/
def subtags : List Char → List (List Char)
  | [] => [[]]
  | c :: rest =>
    if isSeparator c then [] :: subtags rest
    else
      match subtags rest with
      | [] => [[c]]
      | first :: more => (c :: first) :: more

/-- A subtag after the first: regions, which have two letters, are in upper case. -/
def normalizeSubtag (s : List Char) : List Char := if s.length = 2 then upper s else s

/-- The subtags with language and regions in their usual case. -/
def normalizeSubtags : List (List Char) → List (List Char)
  | [] => []
  | language :: rest => lower language :: rest.map normalizeSubtag

def joinSubtags (subtags : List (List Char)) : List Char := ['-'].intercalate subtags

def normalize (tag : String) : String :=
  String.ofList (joinSubtags (normalizeSubtags (subtags tag.toList)))

/-- Whether a tag in its usual form is more than a language. -/
def isExtended (tag : String) : Bool := tag.toList.contains '-'

/-- The usual form of a tag, a bare language with its main region. -/
def extend (tag : String) : String :=
  let usual := normalize tag
  if isExtended usual then usual else (primaryDialects.lookup usual).getD usual

def beforeHyphen (tag : String) : String := String.ofList (tag.toList.takeWhile (· != '-'))

/-- What stands before the first separator of a tag, as it is written. -/
def primarySubtag (tag : String) : String :=
  String.ofList (tag.toList.takeWhile fun c => !isSeparator c)

/-- Whether a locale declared for `candidate` suits the language `requested`; one declared for no
language suits all. -/
def suits (candidate : Option String) (requested : String) : Bool :=
  match candidate with
  | none => true
  | some tag =>
    if tag = "" then true
    else if isExtended (normalize tag) then normalize tag == extend requested
    else beforeHyphen (extend requested) == normalize tag

end CiteStyle.Language
