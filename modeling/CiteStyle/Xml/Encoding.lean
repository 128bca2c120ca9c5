import CiteStyle.Text.Utf8
import CiteStyle.Xml.Declaration

/-!
From the bytes of a document to its text.

A byte order mark decides the encoding, else the first two characters if they are written in two
bytes each, else the declaration, else it is UTF-8. Bytes that have no meaning in the encoding end
the text with a character that no document may contain, so that the reader stops there.
-/

namespace CiteStyle.Xml

inductive Encoding where
  | utf8 | utf16 (bigEndian : Bool) | latin1 | ascii
  deriving DecidableEq, Repr

/-- The character at which reading a document always stops. -/
def barrier : Char := Char.ofNat 0

/-- UTF-16 code units of bytes; an odd byte at the end is no unit. -/
def units (bigEndian : Bool) : List UInt8 → List (Option Nat)
  | a :: b :: rest =>
    some (if bigEndian then a.toNat * 256 + b.toNat else b.toNat * 256 + a.toNat)
      :: units bigEndian rest
  | [_] => [none]
  | [] => []

/-- The text of UTF-16 code units. -/
def textOfUnits : List (Option Nat) → List Char
  | [] => []
  | some a :: some b :: rest =>
    if 0xd800 ≤ a && a ≤ 0xdbff then
      if 0xdc00 ≤ b && b ≤ 0xdfff then
        Char.ofNat (0x10000 + (a - 0xd800) * 0x400 + (b - 0xdc00)) :: textOfUnits rest
      else [barrier]
    else if 0xdc00 ≤ a && a ≤ 0xdfff then [barrier]
    else Char.ofNat a :: textOfUnits (some b :: rest)
  | some a :: rest =>
    if 0xd800 ≤ a && a ≤ 0xdfff then [barrier] else Char.ofNat a :: textOfUnits rest
  | none :: _ => [barrier]

/-- The text of UTF-8 up to its first damaged part. -/
def textOfUtf8 : List (Option Char) → List Char
  | [] => []
  | some c :: rest => c :: textOfUtf8 rest
  | none :: _ => [barrier]

def textOfAscii : List UInt8 → List Char
  | [] => []
  | b :: rest => if b < 0x80 then Char.ofNat b.toNat :: textOfAscii rest else [barrier]

def textOfLatin1 (bytes : List UInt8) : List Char := bytes.map fun b => Char.ofNat b.toNat

def Encoding.text : Encoding → List UInt8 → List Char
  | utf8, bytes => textOfUtf8 (Text.Utf8.decode bytes)
  | utf16 bigEndian, bytes => textOfUnits (units bigEndian bytes)
  | latin1, bytes => textOfLatin1 bytes
  | ascii, bytes => textOfAscii bytes

/-- The encoding of a given name for bytes that are characters each in the declaration; upper and
lower case are alike. -/
def Encoding.ofName? (name : List Char) : Option Encoding :=
  let upper := String.ofList (name.map Char.toUpper)
  if ["UTF-8", "UTF8"].contains upper then some utf8
  else if ["ISO-8859-1", "ISO8859-1", "ISO_8859-1", "ISO-LATIN-1", "ISO-IR-100", "LATIN1",
      "LATIN-1", "L1", "CP819", "IBM819"].contains upper then some latin1
  else if ["US-ASCII", "ASCII", "ANSI_X3.4-1968", "ISO-IR-6", "ISO646-US", "US"].contains upper then
    some ascii
  else none

/-- The text of bytes without byte order mark. A declaration that cannot be read, or that names an
encoding the bytes cannot be in, is left for the reader with a barrier after it. -/
def textOfDeclared (bytes : List UInt8) : List Char :=
  let plain := textOfLatin1 bytes
  if startsDeclaration plain then
    match declaration plain with
    | .error stop => plain.take (plain.length - stop.rest.length) ++ [barrier]
    | .ok (declared, rest) =>
      match declared.encoding with
      | none => Encoding.utf8.text bytes
      | some name =>
        match Encoding.ofName? name with
        | some encoding => encoding.text bytes
        | none => plain.take (plain.length - rest.length) ++ [barrier]
  else Encoding.utf8.text bytes

def textOfBytes (bytes : List UInt8) : List Char :=
  match bytes with
  | 0xef :: 0xbb :: 0xbf :: _ => Encoding.utf8.text bytes
  | 0xfe :: 0xff :: _ => (Encoding.utf16 true).text bytes
  | 0xff :: 0xfe :: _ => (Encoding.utf16 false).text bytes
  | 0x3c :: 0x00 :: 0x3f :: 0x00 :: _ => (Encoding.utf16 false).text bytes
  | 0x00 :: 0x3c :: 0x00 :: 0x3f :: _ => (Encoding.utf16 true).text bytes
  | _ => textOfDeclared bytes

end CiteStyle.Xml
