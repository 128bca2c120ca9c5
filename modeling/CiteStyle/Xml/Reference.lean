import CiteStyle.Table
import CiteStyle.Text.Numeral
import CiteStyle.Xml.Reader

/-!
References to characters and entities, and the entities that a document declares.

Five entities are known in every document. Others are declared as a text of their own, as
something outside the document, or as data that is no XML. An unknown entity is a mistake unless
declarations may stand where they are not read.
-/

namespace CiteStyle.Xml

open Text (isHexDigit numeral)

inductive Reference where
  | character (c : Char)
  | entity (name : String)
  deriving DecidableEq, Repr

/-- A reference by number, read from `s` after the marks that introduce it. -/
def numeric (base : Nat) (digit : Char → Bool) (s : List Char) :
    Except Stop (Reference × List Char) :=
  match s.dropWhile digit with
  | ';' :: r =>
    let c := Char.ofNat (numeral base (s.takeWhile digit))
    if isChar c then .ok (.character c, r) else .error ⟨s⟩
  | _ => .error ⟨s⟩

/-- A reference after its ampersand. -/
def reference : Reader Reference
  | '#' :: 'x' :: r => numeric 16 isHexDigit r
  | '#' :: r => numeric 10 Char.isDigit r
  | s =>
    match name? s with
    | some (n, ';' :: r) => .ok (.entity (String.ofList n), r)
    | _ => .error ⟨s⟩

theorem length_of_numeric {base : Nat} {digit : Char → Bool} {s r : List Char} {x : Reference}
    (h : numeric base digit s = .ok (x, r)) : r.length < s.length := by
  simp only [numeric] at h
  split at h
  · next t hd =>
    have hl := length_dropWhile_le digit s
    rw [hd, List.length_cons] at hl
    split at h
    · simp only [Except.ok.injEq, Prod.mk.injEq] at h
      grind
    · simp at h
  · simp at h

theorem length_of_reference {s r : List Char} {x : Reference}
    (h : reference s = .ok (x, r)) : r.length < s.length := by
  unfold reference at h
  split at h
  · have := length_of_numeric h
    grind
  · have := length_of_numeric h
    grind
  · split at h
    · next n t hn =>
      have := length_of_name? hn
      simp only [Except.ok.injEq, Prod.mk.injEq] at h
      grind
    · simp at h

/-- The characters that are known by name in every document. -/
def predefined? (name : String) : Option Char :=
  if name = "lt" then some '<'
  else if name = "gt" then some '>'
  else if name = "amp" then some '&'
  else if name = "apos" then some '\x27'
  else if name = "quot" then some '"'
  else none

inductive Entity where
  | internal (text : List Char)
  | external
  | unparsed
  deriving DecidableEq, Repr

structure Entities where
  declared : Table Entity := .empty
  /-- Declarations may stand where they are not read, so an unknown entity is no mistake. -/
  incomplete : Bool := false

def Reference.text? (resolve : String → Option (List Char)) : Reference → Option (List Char)
  | .character c => some [c]
  | .entity name => resolve name

/-- The next piece of an attribute value: a character, white space as a single space, or the text
of a reference. -/
def attributePiece (resolve : String → Option (List Char)) : Reader (List Char)
  | [] => .error ⟨[]⟩
  | '&' :: r =>
    match reference r with
    | .error e => .error e
    | .ok (x, t) =>
      match x.text? resolve with
      | some piece => .ok (piece, t)
      | none => .error ⟨t⟩
  | c :: r =>
    if c == '<' || !isChar c then .error ⟨c :: r⟩
    else .ok ([if isSpace c then ' ' else c], r)

theorem length_of_attributePiece {resolve : String → Option (List Char)} {s v r : List Char}
    (h : attributePiece resolve s = .ok (v, r)) : r.length < s.length := by
  unfold attributePiece at h
  split at h <;> grind [→ length_of_reference]

/-- The value of an attribute up to its closing mark, or up to the end of the text if no mark is
given. -/
def attributeText (resolve : String → Option (List Char)) (mark : Option Char) (s : List Char) :
    Except Stop (List Char × List Char) :=
  match s with
  | [] => if mark.isNone then .ok ([], []) else .error ⟨[]⟩
  | c :: r =>
    if mark = some c then .ok ([], r)
    else
      match _h : attributePiece resolve (c :: r) with
      | .error e => .error e
      | .ok (piece, t) =>
        match attributeText resolve mark t with
        | .error e => .error e
        | .ok (v, u) => .ok (piece ++ v, u)
termination_by s.length
decreasing_by exact length_of_attributePiece _h

theorem length_of_attributeText {resolve : String → Option (List Char)} {mark : Option Char}
    {s v r : List Char} (h : attributeText resolve mark s = .ok (v, r)) : r.length ≤ s.length := by
  induction s using attributeText.induct resolve mark
    generalizing v r <;> unfold attributeText at h <;> grind [→ length_of_attributePiece]

/-- The text that an entity stands for in an attribute value. Expansion may nest as deep as there
are entities and no deeper, so an entity that needs itself has no text. -/
def Entities.expansion? (entities : Entities) : Nat → String → Option (List Char)
  | 0, _ => none
  | depth + 1, name =>
    match predefined? name with
    | some c => some [c]
    | none =>
      match entities.declared.get? name with
      | none => if entities.incomplete then some [] else none
      | some (.internal text) =>
        match attributeText (entities.expansion? depth) none text with
        | .ok (v, _) => some v
        | .error _ => none
      | some _ => none

/-- The text that an entity stands for in an attribute value, if it may stand there. -/
def Entities.attributeText? (entities : Entities) (name : String) : Option (List Char) :=
  entities.expansion? (entities.declared.size + 1) name

end CiteStyle.Xml
