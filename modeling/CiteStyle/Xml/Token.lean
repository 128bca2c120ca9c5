import CiteStyle.Xml.Section
import CiteStyle.Xml.Tag

/-!
What the content of an element is made of: character data, tags, entity references, and gaps that
leave nothing but still separate the text before them from the text after them.
-/

namespace CiteStyle.Xml

inductive Token where
  | text (s : List Char)
  | gap
  | entity (name : String)
  | opening (name : QName) (attributes : List Attribute) (closed : Bool)
  | closing (name : String)
  deriving DecidableEq, Repr

/-- A piece of content after a less-than sign. -/
def markup (entities : Entities) : Reader Token
  | '/' :: r => (endTag r).map fun (name, t) => (.closing name, t)
  | '?' :: r => (instruction r).map fun t => (.gap, t)
  | '!' :: '-' :: '-' :: r => (comment r).map fun t => (.gap, t)
  | '!' :: '[' :: 'C' :: 'D' :: 'A' :: 'T' :: 'A' :: '[' :: r =>
    (dataSection r).map fun (s, t) => (.text s, t)
  | s => (startTag entities s).map fun ((name, attributes, closed), t) =>
    (.opening name attributes closed, t)

def Reference.token : Reference → Token
  | .character c => .text [c]
  | .entity name =>
    match predefined? name with
    | some c => .text [c]
    | none => .entity name

/-- The next piece of content. The end of a character data section may not stand in plain text. -/
def token (entities : Entities) : Reader Token
  | [] => .error ⟨[]⟩
  | '<' :: r => markup entities r
  | '&' :: r => (reference r).map fun (x, t) => (x.token, t)
  | ']' :: ']' :: '>' :: r => .error ⟨']' :: ']' :: '>' :: r⟩
  | c :: r => if isChar c then .ok (.text [lineFeed c], r) else .error ⟨c :: r⟩

theorem length_of_markup {entities : Entities} {s r : List Char} {x : Token}
    (h : markup entities s = .ok (x, r)) : r.length < s.length := by
  unfold markup at h
  split at h <;>
    grind [→ exists_of_map_eq_ok, → length_of_endTag, → length_of_instruction, → length_of_comment,
      → length_of_dataSection, → length_of_startTag]

theorem length_of_token {entities : Entities} {s r : List Char} {x : Token}
    (h : token entities s = .ok (x, r)) : r.length < s.length := by
  unfold token at h
  split at h <;> grind [→ exists_of_map_eq_ok, → length_of_markup, → length_of_reference]

end CiteStyle.Xml
