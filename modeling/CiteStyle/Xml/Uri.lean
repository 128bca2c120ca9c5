import CiteStyle.Text.Numeral
import CiteStyle.Xml.Reader

/-!
References to resources: which texts are well-formed ones.

A reference is an identifier with a scheme, or relative to something. Both may name an authority
after two slashes, then have a path, a query after a question mark and a fragment after a hash.
-/

namespace CiteStyle.Xml.Uri

open Text (isHexDigit numeral)

/-- Letters, digits and the marks that need no escape. -/
def isUnreserved (c : Char) : Bool := c.isAlphanum || ['-', '.', '_', '~'].contains c

/-- Delimiters that may stand inside a component. -/
def isDelimiter (c : Char) : Bool :=
  ['!', '$', '&', '\x27', '(', ')', '*', '+', ',', ';', '='].contains c

/-- The text after the longest run of unreserved characters, escapes, delimiters and the
characters `more`. -/
def skipRun (more : List Char) : List Char → List Char
  | '%' :: a :: b :: r => if isHexDigit a && isHexDigit b then skipRun more r else '%' :: a :: b :: r
  | c :: r => if isUnreserved c || isDelimiter c || more.contains c then skipRun more r else c :: r
  | [] => []

/-- The text after segments that each follow a slash. -/
def skipSegments (s : List Char) : List Char := skipRun [':', '@', '/'] s

def host? : List Char → Option (List Char)
  | '[' :: r => (r.dropWhile (· != ']')).tail?
  | s => some (skipRun [] s)

/-- The number after a host, which needs a digit and stays below two to the thirty-first power. -/
def hostNumber? (s : List Char) : Option (List Char) :=
  let digits := s.takeWhile Char.isDigit
  if digits.isEmpty || numeral 10 digits ≥ Nat.pow 2 31 then none else some (s.dropWhile Char.isDigit)

/-- An authority: user information before an at sign, a host, a number after a colon. -/
def authority? (s : List Char) : Option (List Char) := do
  let afterUser := match skipRun [':'] s with
    | '@' :: r => r
    | _ => s
  match ← host? afterUser with
  | ':' :: r => hostNumber? r
  | r => some r

/-- A path that is empty or begins with a slash. -/
def rootedPath (s : List Char) : List Char := if s.head? == some '/' then skipSegments s else s

/-- What follows the scheme. -/
def hierarchy? : List Char → Option (List Char)
  | '/' :: '/' :: r => (authority? r).map rootedPath
  | s => some (skipSegments s)

/-- Query, fragment and the end. -/
def isTail (s : List Char) : Bool :=
  let afterQuery := match s with
    | '?' :: r => skipRun [':', '@', '/', '?'] r
    | r => r
  match afterQuery with
  | '#' :: r => (skipRun [':', '@', '/', '?', '[', ']'] r).isEmpty
  | r => r.isEmpty

/-- An identifier with a scheme. -/
def isAbsolute (s : List Char) : Bool :=
  let isScheme (c : Char) : Bool := c.isAlphanum || ['+', '-', '.'].contains c
  match s with
  | c :: _ =>
    match s.dropWhile isScheme with
    | ':' :: r => c.isAlpha && (hierarchy? r).any isTail
    | _ => false
  | [] => false

/-- A reference without scheme; a colon may not stand in its first segment. -/
def isRelative : List Char → Bool
  | '/' :: '/' :: r => (authority? r).any fun t => isTail (rootedPath t)
  | s => isTail (rootedPath (skipRun ['@'] s))

def isReference (s : List Char) : Bool := isAbsolute s || isRelative s

end CiteStyle.Xml.Uri
