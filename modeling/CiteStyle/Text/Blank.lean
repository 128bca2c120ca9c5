import CiteStyle.Text.CodeRange

/-! White space of all scripts: trimming a text and cutting it into words. -/

namespace CiteStyle.Text

/-- The code points of white space. Zero-width characters do not belong to it. -/
def blankCodes : CodeRanges := [
  (0x9, 0xd), (0x1c, 0x20), (0x85, 0x85), (0xa0, 0xa0), (0x1680, 0x1680), (0x2000, 0x200a),
  (0x2028, 0x2029), (0x202f, 0x202f), (0x205f, 0x205f), (0x3000, 0x3000)]

def isBlank (c : Char) : Bool := blankCodes.has c

def trimStart (s : List Char) : List Char := s.dropWhile isBlank

def trimEnd (s : List Char) : List Char := (trimStart s.reverse).reverse

/-- A text of white space only; the empty text is one. -/
def isAllBlank (s : List Char) : Bool := s.all isBlank

/-- The words of a text whose part `word`, last character first, has been read already. -/
def wordsAfter (word : List Char) : List Char → List (List Char)
  | [] => if word.isEmpty then [] else [word.reverse]
  | c :: rest =>
    if isBlank c then
      if word.isEmpty then wordsAfter [] rest else word.reverse :: wordsAfter [] rest
    else wordsAfter (c :: word) rest

/-- The maximal runs of other characters than white space. -/
def words (s : List Char) : List (List Char) := wordsAfter [] s

theorem trimStart_eq_nil_iff {s : List Char} : trimStart s = [] ↔ isAllBlank s = true := by
  induction s with
  | nil => simp [trimStart, isAllBlank]
  | cons c rest ih =>
    by_cases h : isBlank c = true
    · rw [trimStart, List.dropWhile_cons_of_pos h, isAllBlank, List.all_cons, h, Bool.true_and]
      exact ih
    · simp [trimStart, isAllBlank, h]

theorem wordsAfter_eq_nil_iff {word s : List Char} :
    wordsAfter word s = [] ↔ word = [] ∧ isAllBlank s = true := by
  induction s generalizing word with
  | nil => cases word <;> simp [wordsAfter, isAllBlank]
  | cons c rest ih =>
    rw [wordsAfter, isAllBlank, List.all_cons]
    cases hc : isBlank c with
    | true => cases word <;> simp [ih, isAllBlank]
    | false => simp [ih]

theorem words_eq_nil_iff {s : List Char} : words s = [] ↔ isAllBlank s = true := by
  rw [words, wordsAfter_eq_nil_iff, and_iff_right rfl]

end CiteStyle.Text
