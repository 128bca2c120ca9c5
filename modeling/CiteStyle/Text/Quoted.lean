import CiteStyle.Text.Printable

/-!
A text shown between quotation marks, on one line and without doubt about any character.

The marks are single unless the text has single marks and no double ones. Backslashes and the
marks themselves are escaped, line feed, carriage return and tab have short escapes, and every
other character without a printed form is written with its code in two, four or eight digits.
-/

namespace CiteStyle.Text.Quoted

/-- The quotation mark for a text. -/
def mark (s : List Char) : Char :=
  if s.contains '\x27' && !s.contains '"' then '"' else '\x27'

/-- The lower-case hexadecimal digits of `n`, at least `width` of them. -/
def hex (width n : Nat) : List Char :=
  let digits := Nat.toDigits 16 n
  List.replicate (width - digits.length) '0' ++ digits

/-- One character of a text that stands between the marks `quote`. -/
def escape (quote c : Char) : List Char :=
  if c == quote || c == '\\' then ['\\', c]
  else if c == '\n' then ['\\', 'n']
  else if c == '\r' then ['\\', 'r']
  else if c == '\t' then ['\\', 't']
  else if isPrintable c then [c]
  else if c.toNat ≤ 0xff then '\\' :: 'x' :: hex 2 c.toNat
  else if c.toNat ≤ 0xffff then '\\' :: 'u' :: hex 4 c.toNat
  else '\\' :: 'U' :: hex 8 c.toNat

def quote (s : List Char) : List Char :=
  mark s :: (s.flatMap (escape (mark s)) ++ [mark s])

def ofString (s : String) : String := String.ofList (quote s.toList)

end CiteStyle.Text.Quoted
