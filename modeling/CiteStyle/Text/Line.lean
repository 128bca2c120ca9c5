import CiteStyle.Text.Blank

/-!
Lines of a text, as an editor shows them.

A line ends at a line feed, a carriage return, the two together, a vertical tab, a form feed, one
of the three information separators, a next-line character, or a line or paragraph separator.
The end of the text ends a line only if something stands on it.
-/

namespace CiteStyle.Text

/-- A line and the characters that end it, none for an unfinished last line. -/
structure Line where
  body : List Char
  ending : List Char
  deriving DecidableEq, Repr

def lineEndCodes : CodeRanges := [
  (0xa, 0xd), (0x1c, 0x1e), (0x85, 0x85), (0x2028, 0x2029)]

def endsLine (c : Char) : Bool := lineEndCodes.has c

/-- The lines of a text whose part `body`, last character first, has been read already. -/
def linesAfter (body : List Char) : List Char → List Line
  | [] => if body.isEmpty then [] else [⟨body.reverse, []⟩]
  | '\r' :: '\n' :: rest => ⟨body.reverse, ['\r', '\n']⟩ :: linesAfter [] rest
  | c :: rest =>
    if endsLine c then ⟨body.reverse, [c]⟩ :: linesAfter [] rest else linesAfter (c :: body) rest

def lines (s : List Char) : List Line := linesAfter [] s

/-- The line with a given number, counted from one; an empty line outside the text. -/
def lineAt (s : List Char) (number : Int) : Line :=
  if number < 1 then ⟨[], []⟩ else ((lines s)[(number - 1).toNat]?).getD ⟨[], []⟩

namespace Line

/-- The line with its ending. -/
def whole (l : Line) : List Char := l.body ++ l.ending

/-- The line as it is quoted in a report: of its ending only line feeds and carriage returns are
taken away. -/
def quoted (l : Line) : List Char :=
  ((l.whole.reverse.dropWhile (· == '\n')).dropWhile (· == '\r')).reverse

end Line

/-- The number of white-space characters at the start of a text. -/
def indent (s : List Char) : Nat := s.length - (trimStart s).length

/-- Nothing of a text is lost when it is cut into lines. -/
theorem linesAfter_whole (body s : List Char) :
    (linesAfter body s).flatMap Line.whole = body.reverse ++ s := by
  induction body, s using linesAfter.induct with
  | case1 body h => simp_all [linesAfter]
  | case2 body h => simp [linesAfter, h, Line.whole]
  | case3 body rest ih => simp [linesAfter, Line.whole, ih]
  | case4 body c rest hne h ih => simp [linesAfter, h, Line.whole, ih]
  | case5 body c rest hne h ih => simp [linesAfter, h, ih]

theorem lines_whole (s : List Char) : (lines s).flatMap Line.whole = s := by
  simpa [lines] using linesAfter_whole [] s

end CiteStyle.Text
