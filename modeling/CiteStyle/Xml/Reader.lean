import CiteStyle.Xml.Character

/-!
Reading from the front of a text.

A reader takes something off the front of a text and gives the text that is left. A reader that
fails gives the text at which it had to stop: the line of a mistake is the line on which that text
begins.
-/

namespace CiteStyle.Xml

/-- The text at which reading had to stop. -/
structure Stop where
  rest : List Char
  deriving DecidableEq, Repr

/-- Takes a value off the front of a text. -/
abbrev Reader (α : Type) := List Char → Except Stop (α × List Char)

def skipSpace (s : List Char) : List Char := s.dropWhile isSpace

def skip? : List Char → List Char → Option (List Char)
  | [], s => some s
  | c :: cs, d :: s => if c = d then skip? cs s else none
  | _ :: _, [] => none

def expect (beginning : List Char) (s : List Char) : Except Stop (List Char) :=
  match skip? beginning s with
  | some r => .ok r
  | none => .error ⟨s⟩

def expectSpace (s : List Char) : Except Stop (List Char) :=
  match s with
  | c :: r => if isSpace c then .ok (skipSpace r) else .error ⟨s⟩
  | [] => .error ⟨s⟩

def plainName? : List Char → Option (List Char × List Char)
  | [] => none
  | c :: r =>
    if isNameStart c then some (c :: r.takeWhile isNamePart, r.dropWhile isNamePart) else none

/-- A name in which colons may stand. -/
def name? : List Char → Option (List Char × List Char)
  | [] => none
  | c :: r =>
    let part (c : Char) : Bool := isNamePart c || c == ':'
    if isNameStart c || c == ':' then some (c :: r.takeWhile part, r.dropWhile part) else none

/-- Text between two equal quotation marks, all of it of accepted characters. -/
def literal (accepted : Char → Bool) : Reader (List Char)
  | [] => .error ⟨[]⟩
  | q :: r =>
    if q == '"' || q == '\x27' then
      let inside (c : Char) : Bool := accepted c && c != q
      match r.dropWhile inside with
      | c :: t => if c == q then .ok (r.takeWhile inside, t) else .error ⟨c :: t⟩
      | [] => .error ⟨[]⟩
    else .error ⟨q :: r⟩

theorem skip?_eq_some_iff {beginning s r : List Char} :
    skip? beginning s = some r ↔ s = beginning ++ r := by
  induction beginning generalizing s with
  | nil => exact ⟨fun h => Option.some.inj h, fun h => congrArg some h⟩
  | cons c cs ih =>
    cases s with
    | nil => simp [skip?]
    | cons d s =>
      rw [skip?]
      split
      · next h => rw [h, ih, List.cons_append, List.cons.injEq, and_iff_right rfl]
      · next h => simp [Ne.symm h]

theorem exists_of_map_eq_ok {ε α β : Type} {f : α → β} {e : Except ε α} {y : β}
    (h : e.map f = .ok y) : ∃ x, e = .ok x ∧ f x = y := by
  cases e with
  | error => simp [Except.map] at h
  | ok x => exact ⟨x, rfl, by simpa [Except.map] using h⟩

theorem length_dropWhile_le (p : Char → Bool) (s : List Char) :
    (s.dropWhile p).length ≤ s.length := (List.dropWhile_suffix p).length_le

theorem length_skipSpace_le (s : List Char) : (skipSpace s).length ≤ s.length :=
  length_dropWhile_le _ s

theorem length_of_plainName? {s n r : List Char} (h : plainName? s = some (n, r)) :
    r.length < s.length := by
  cases s with
  | nil => simp [plainName?] at h
  | cons c t =>
    simp only [plainName?] at h
    split at h
    · have := length_dropWhile_le isNamePart t
      grind
    · simp at h

theorem length_of_name? {s n r : List Char} (h : name? s = some (n, r)) :
    r.length < s.length := by
  cases s with
  | nil => simp [name?] at h
  | cons c t =>
    simp only [name?] at h
    split at h
    · have := length_dropWhile_le (fun c => isNamePart c || c == ':') t
      grind
    · simp at h

end CiteStyle.Xml
