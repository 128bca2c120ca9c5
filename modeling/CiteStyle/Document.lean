import CiteStyle.Fault
import CiteStyle.Text.WordCharacter
import CiteStyle.Xml.Document
import CiteStyle.Xml.Encoding

/-!
Style and locale documents as they come in: as text, or as the bytes of a file.

A text may begin with an XML declaration. What it declares was settled when the text was made, so
it is replaced by blanks before the text is read. Bytes are decoded as the document itself says;
where only their words matter, they are taken as UTF-8 whatever they are.
-/

namespace CiteStyle

open Text (isBlank isAllBlank isWordCharacter)

/-- A document before it is read. -/
inductive Document where
  | text (s : String)
  | bytes (b : List UInt8)
  deriving DecidableEq, Repr

/-- The place in a text where its XML declaration ends: after white space, an opening that is the
whole of a word, and anything up to the first closing bracket, which must follow a question
mark. -/
def afterDeclaration? (s : List Char) : Option (List Char) :=
  match Xml.skip? Xml.declarationOpening (s.dropWhile isBlank) with
  | none => none
  | some r =>
    let inside := r.takeWhile (· != '>')
    if r.head?.any isWordCharacter then none
    else if inside.getLast? == some '?' then (r.dropWhile (· != '>')).tail?
    else none

def blankDeclaration (s : List Char) : List Char :=
  match afterDeclaration? s with
  | none => s
  | some rest =>
    (s.take (s.length - rest.length)).map (fun c => if isBlank c then c else ' ') ++ rest

/-- Whether a character is a letter of the reference to the year suffix, whatever its case. The
dotted and the dotless i and the long s count as well. -/
def sameLetter (expected c : Char) : Bool :=
  c.toLower == expected ||
    (expected == 'i' && (c.toNat == 0x130 || c.toNat == 0x131)) ||
    (expected == 's' && c.toNat == 0x17f)

def startsWithLetters : List Char → List Char → Bool
  | [], _ => true
  | e :: es, c :: cs => sameLetter e c && startsWithLetters es cs
  | _ :: _, [] => false

def yearSuffixReference : List Char := "variable=\"year-suffix\"".toList

/-- Whether a text refers to the year suffix anywhere, be it in a comment. -/
def mentionsYearSuffix : List Char → Bool
  | [] => false
  | c :: cs => startsWithLetters yearSuffixReference (c :: cs) || mentionsYearSuffix cs

namespace Document

/-- The words of a document, for a search and for reports. -/
def source : Document → String
  | text s => s
  | bytes b => String.ofList (Text.Utf8.lenient b)

def usesYearSuffix (d : Document) : Bool := mentionsYearSuffix d.source.toList

/-- The text from which a document is read. -/
def readable : Document → List Char
  | text s => blankDeclaration s.toList
  | bytes b => Xml.textOfBytes b

def parse (d : Document) : Except Failure Element :=
  if isAllBlank d.source.toList then .error ⟨.empty, ""⟩
  else (Xml.read d.readable).mapError fun line => ⟨.malformed line, d.source⟩

end Document

end CiteStyle
