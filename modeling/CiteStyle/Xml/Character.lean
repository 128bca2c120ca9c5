import CiteStyle.Text.CodeRange

/-! The characters of XML documents and the names built from them. -/

namespace CiteStyle.Xml

open Text (CodeRanges)

/-- The code points that may stand in a document. -/
def charCodes : CodeRanges := [
  (0x9, 0xa), (0xd, 0xd), (0x20, 0xd7ff), (0xe000, 0xfffd), (0x10000, 0x10ffff)]

def isChar (c : Char) : Bool := charCodes.has c

/-- White space between the parts of a tag or declaration. -/
def isSpace (c : Char) : Bool := c == ' ' || c == '\t' || c == '\n' || c == '\r'

def nameStartCodes : CodeRanges := [
  (0x41, 0x5a), (0x5f, 0x5f), (0x61, 0x7a), (0xc0, 0xd6), (0xd8, 0xf6), (0xf8, 0x2ff),
  (0x370, 0x37d), (0x37f, 0x1fff), (0x200c, 0x200d), (0x2070, 0x218f), (0x2c00, 0x2fef),
  (0x3001, 0xd7ff), (0xf900, 0xfdcf), (0xfdf0, 0xfffd), (0x10000, 0xeffff)]

/-- The further code points that may follow in a name. -/
def nameRestCodes : CodeRanges := [
  (0x2d, 0x2e), (0x30, 0x39), (0xb7, 0xb7), (0x300, 0x36f), (0x203f, 0x2040)]

/-- A character that may begin a name without colon. -/
def isNameStart (c : Char) : Bool := nameStartCodes.has c

def isNamePart (c : Char) : Bool := isNameStart c || nameRestCodes.has c

/-- Of a line end written as carriage return and line feed, the line feed stays. -/
def joinLineEnds : List Char → List Char
  | [] => []
  | '\r' :: '\n' :: rest => '\n' :: joinLineEnds rest
  | c :: rest => c :: joinLineEnds rest

/-- A line end in character data is a line feed. -/
def lineFeed (c : Char) : Char := if c == '\r' then '\n' else c

end CiteStyle.Xml
