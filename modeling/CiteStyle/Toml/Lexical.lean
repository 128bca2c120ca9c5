import CiteStyle.Number.Literal
import CiteStyle.Text.Numeral
import CiteStyle.Toml.Value

/-!
The simple parts of configuration files: comments, keys, texts, numbers, dates and times.

Each reader takes its part off the front of a text and gives what is left, or nothing if the text
does not begin as it should.
-/

namespace CiteStyle.Toml

open Text (isHexDigit numeral)

def isInlineSpace (c : Char) : Bool := c == ' ' || c == '\t'

/-- White space between the items of an array. -/
def isArraySpace (c : Char) : Bool := isInlineSpace c || c == '\n'

/-- A control character other than the tab. -/
def isControl (c : Char) : Bool := (c.toNat < 0x20 && c != '\t') || c.toNat == 0x7f

def skipInline (s : List Char) : List Char := s.dropWhile isInlineSpace

def after? : List Char → List Char → Option (List Char)
  | [], s => some s
  | c :: cs, d :: s => if c = d then after? cs s else none
  | _ :: _, [] => none

/-- The text after a comment, which may be missing. -/
def skipComment (s : List Char) : Option (List Char) :=
  match s with
  | '#' :: r =>
    if (r.takeWhile (· != '\n')).any isControl then none else some (r.dropWhile (· != '\n'))
  | r => some r

/-- The text after white space, line ends and comments, which may alternate `count` times. -/
def skipArraySpace : Nat → List Char → Option (List Char)
  | 0, s => some s
  | count + 1, s =>
    match s.dropWhile isArraySpace with
    | '#' :: r => (skipComment ('#' :: r)).bind (skipArraySpace count)
    | r => some r

/-- The character with a code of `width` hexadecimal digits. -/
def codedChar (width : Nat) (s : List Char) : Option (Char × List Char) :=
  let digits := s.take width
  let n := numeral 16 digits
  if digits.length = width && digits.all isHexDigit && n.isValidChar then
    some (Char.ofNat n, s.drop width)
  else none

/-- An escaped character after its backslash. -/
def escapedChar : List Char → Option (Char × List Char)
  | 'b' :: r => some ('\x08', r)
  | 't' :: r => some ('\t', r)
  | 'n' :: r => some ('\n', r)
  | 'f' :: r => some ('\x0c', r)
  | 'r' :: r => some ('\r', r)
  | '"' :: r => some ('"', r)
  | '\\' :: r => some ('\\', r)
  | 'u' :: r => codedChar 4 r
  | 'U' :: r => codedChar 8 r
  | _ => none

/-- The rest of a text on one line, at most `count` characters of it. -/
def lineText : Nat → List Char → Option (List Char × List Char)
  | 0, _ => none
  | count + 1, s =>
    match s with
    | [] => none
    | '"' :: r => some ([], r)
    | '\\' :: r => do
      let (c, t) ← escapedChar r
      let (text, u) ← lineText count t
      return (c :: text, u)
    | c :: r =>
      if isControl c then none
      else do
        let (text, t) ← lineText count r
        return (c :: text, t)

def lineLiteral : List Char → Option (List Char × List Char)
  | [] => none
  | c :: r =>
    if c == '\x27' then some ([], r)
    else if isControl c then none
    else (lineLiteral r).map fun (text, t) => (c :: text, t)

/-- What follows a backslash at the end of a line: the line end and all white space after it. -/
def continuation? (s : List Char) : Option (List Char) :=
  match s with
  | c :: _ =>
    if isArraySpace c then
      match skipInline s with
      | '\n' :: r => some (r.dropWhile isArraySpace)
      | [] => some []
      | _ => none
    else none
  | [] => none

/-- The rest of a text of several lines up to its three closing marks, at most `count` characters
of it. -/
def longText : Nat → List Char → Option (List Char × List Char)
  | 0, _ => none
  | count + 1, s =>
    match s with
    | [] => none
    | '"' :: '"' :: '"' :: r => some ([], r)
    | '\\' :: r =>
      if r.head?.any isArraySpace then do longText count (← continuation? r)
      else do
        let (c, t) ← escapedChar r
        let (text, u) ← longText count t
        return (c :: text, u)
    | c :: r =>
      if isControl c && c != '\n' then none
      else do
        let (text, t) ← longText count r
        return (c :: text, t)

def longLiteral : List Char → Option (List Char × List Char)
  | [] => none
  | '\x27' :: '\x27' :: '\x27' :: r => some ([], r)
  | c :: r =>
    if isControl c && c != '\n' then none
    else (longLiteral r).map fun (text, t) => (c :: text, t)

/-- Up to two more marks after three closing ones belong to the text. -/
def extraMarks (mark : Char) (text rest : List Char) : List Char × List Char :=
  match rest with
  | a :: b :: r =>
    if a == mark then
      if b == mark then (text ++ [mark, mark], r) else (text ++ [mark], b :: r)
    else (text, rest)
  | [a] => if a == mark then (text ++ [mark], []) else (text, rest)
  | [] => (text, [])

/-- A line end that directly follows the opening marks of a long text does not belong to it. -/
def dropFirstLineEnd : List Char → List Char
  | '\n' :: r => r
  | s => s

/-- A text in any of its four forms. -/
def quoted? (s : List Char) : Option (List Char × List Char) :=
  match s with
  | '"' :: '"' :: '"' :: r =>
    (longText (r.length + 1) (dropFirstLineEnd r)).map fun (text, t) => extraMarks '"' text t
  | '"' :: r => lineText (r.length + 1) r
  | '\x27' :: '\x27' :: '\x27' :: r =>
    (longLiteral (dropFirstLineEnd r)).map fun (text, t) => extraMarks '\x27' text t
  | '\x27' :: r => lineLiteral r
  | _ => none

def isKeyChar (c : Char) : Bool := c.isAlphanum || c == '-' || c == '_'

def keyPart (s : List Char) : Option (String × List Char) :=
  match s with
  | '"' :: r => (lineText (r.length + 1) r).map fun (text, t) => (String.ofList text, t)
  | '\x27' :: r => (lineLiteral r).map fun (text, t) => (String.ofList text, t)
  | _ =>
    let name := s.takeWhile isKeyChar
    if name.isEmpty then none else some (String.ofList name, s.dropWhile isKeyChar)

/-- A key of at most `count` parts with points between, and the text after white space that
follows. -/
def key : Nat → List Char → Option (List String × List Char)
  | 0, _ => none
  | count + 1, s => do
    let (part, r) ← keyPart s
    match skipInline r with
    | '.' :: t =>
      let (more, u) ← key count (skipInline t)
      return (part :: more, u)
    | t => return ([part], t)

/-- Digits of a base, single underscores between them; at least one. -/
def digitRun (isDigit : Char → Bool) : List Char → Option (List Char × List Char)
  | [] => none
  | c :: r =>
    if isDigit c then
      match r with
      | '_' :: t =>
        match digitRun isDigit t with
        | some (more, u) => some (c :: more, u)
        | none => some ([c], '_' :: t)
      | t =>
        match digitRun isDigit t with
        | some (more, u) => some (c :: more, u)
        | none => some ([c], t)
    else none

/-- A whole number in base sixteen, eight or two. -/
def basedNumber? : List Char → Option (Toml × List Char)
  | '0' :: 'x' :: r => (digitRun isHexDigit r).map fun (ds, t) => (.integer (numeral 16 ds), t)
  | '0' :: 'o' :: r =>
    (digitRun (fun c => '0' ≤ c && c ≤ '7') r).map fun (ds, t) => (.integer (numeral 8 ds), t)
  | '0' :: 'b' :: r =>
    (digitRun (fun c => c == '0' || c == '1') r).map fun (ds, t) => (.integer (numeral 2 ds), t)
  | _ => none

/-- The digits before the point: a zero alone, or digits that do not begin with one. -/
def wholePart : List Char → Option (List Char × List Char)
  | '0' :: r => some (['0'], r)
  | s => digitRun Char.isDigit s

def fractionPart : List Char → List Char × List Char
  | '.' :: r =>
    match digitRun Char.isDigit r with
    | some (ds, t) => (ds, t)
    | none => ([], '.' :: r)
  | s => ([], s)

def signPart : List Char → Bool × List Char
  | '-' :: r => (true, r)
  | '+' :: r => (false, r)
  | s => (false, s)

def exponentPart (s : List Char) : Option (Int × List Char) :=
  match s with
  | c :: r =>
    if c == 'e' || c == 'E' then
      let (negative, t) := signPart r
      (digitRun Char.isDigit t).map fun (ds, u) =>
        (if negative then -(numeral 10 ds : Int) else numeral 10 ds, u)
    else none
  | [] => none

def decimalNumber? (s : List Char) : Option (Toml × List Char) := do
  let (negative, r) := signPart s
  let (whole, t) ← wholePart r
  let (part, u) := fractionPart t
  match exponentPart u with
  | some (e, v) =>
    return (.real (.ofDecimal negative (numeral 10 (whole ++ part)) (e - part.length)), v)
  | none =>
    if part.isEmpty then
      guard (whole.length ≤ maxDigits)
      let n := numeral 10 whole
      return (.integer (if negative then -(n : Int) else n), u)
    else return (.real (.ofDecimal negative (numeral 10 (whole ++ part)) (-part.length)), u)

/-- An infinite number or none. -/
def namedNumber? (s : List Char) : Option (Toml × List Char) :=
  let (negative, r) := signPart s
  match after? "inf".toList r with
  | some t => some (.real (.infinite negative), t)
  | none => (after? "nan".toList r).map fun t => (.real .nan, t)

/-- Exactly `width` digits of a number between two bounds. -/
def boundedDigits (width low high : Nat) (s : List Char) : Option (Nat × List Char) :=
  let ds := s.take width
  let n := numeral 10 ds
  if ds.length = width && ds.all Char.isDigit && low ≤ n && n ≤ high then some (n, s.drop width)
  else none

/-- A time of day; of a fraction six digits count. -/
def time? (s : List Char) : Option (Clock × List Char) := do
  let (hour, r) ← boundedDigits 2 0 23 s
  let r ← after? [':'] r
  let (minute, r) ← boundedDigits 2 0 59 r
  let r ← after? [':'] r
  let (second, r) ← boundedDigits 2 0 59 r
  match r with
  | '.' :: t =>
    let ds := t.takeWhile Char.isDigit
    if ds.isEmpty then return (⟨hour, minute, second, 0⟩, r)
    else
      let micro := numeral 10 (ds.take 6 ++ List.replicate (6 - ds.length) '0')
      return (⟨hour, minute, second, micro⟩, t.dropWhile Char.isDigit)
  | t => return (⟨hour, minute, second, 0⟩, t)

def offset (s : List Char) : Option Offset × List Char :=
  match s with
  | [] => (none, [])
  | c :: r =>
    if c == 'Z' || c == 'z' then (some ⟨0⟩, r)
    else if c == '+' || c == '-' then
      let found := do
        let (hour, t) ← boundedDigits 2 0 23 r
        let t ← after? [':'] t
        let (minute, t) ← boundedDigits 2 0 59 t
        let minutes : Int := hour * 60 + minute
        return (some (Offset.mk (if c == '-' then -minutes else minutes)), t)
      found.getD (none, s)
    else (none, s)

def daysIn (year month : Nat) : Nat :=
  if month = 2 then
    if year % 4 = 0 && (year % 100 != 0 || year % 400 = 0) then 29 else 28
  else if [4, 6, 9, 11].contains month then 30
  else 31

/-- A date, perhaps with a time and its distance from universal time. A text that has the form of a
date but is none makes the inner result fail. -/
def date? (s : List Char) : Option (Option (Toml × List Char)) := do
  let (year, r) ← boundedDigits 4 0 9999 s
  let r ← after? ['-'] r
  let (month, r) ← boundedDigits 2 1 12 r
  let r ← after? ['-'] r
  let (day, r) ← boundedDigits 2 1 31 r
  let date : Date := ⟨year, month, day⟩
  let full : Moment × List Char :=
    match r with
    | c :: t =>
      if c == 'T' || c == 't' || c == ' ' then
        match time? t with
        | some (clock, u) =>
          let (zone, v) := offset u
          (.full date clock zone, v)
        | none => (.date date, r)
      else (.date date, r)
    | [] => (.date date, [])
  if year = 0 || day > daysIn year month then return none
  else return some (.moment full.1, full.2)

end CiteStyle.Toml
