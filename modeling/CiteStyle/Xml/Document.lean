import CiteStyle.Xml.Content
import CiteStyle.Xml.Declaration
import CiteStyle.Xml.DocType

/-!
Whole documents: what may stand before and after the root element.

A document that is not well-formed gives the line on which the reader had to stop, counted by line
feeds alone.
-/

namespace CiteStyle.Xml

def skipMisc (s : List Char) : Except Stop (List Char) :=
  match _hs : skipSpace s with
  | '<' :: '?' :: r =>
    match _hr : instruction r with
    | .error e => .error e
    | .ok t => skipMisc t
  | '<' :: '!' :: '-' :: '-' :: r =>
    match _hr : comment r with
    | .error e => .error e
    | .ok t => skipMisc t
  | t => .ok t
termination_by s.length
decreasing_by
  · have h1 := length_skipSpace_le s
    have h2 := length_of_instruction _hr
    grind
  · have h1 := length_skipSpace_le s
    have h2 := length_of_comment _hr
    grind

/-- The entities that are declared before the root element, and the text that follows. -/
def prolog (standalone : Bool) (s : List Char) : Except Stop (Entities × List Char) := do
  let r ← skipMisc s
  match skip? "<!DOCTYPE".toList r with
  | none => return ({}, r)
  | some t =>
    let (entities, u) ← docType standalone t
    return (entities, ← skipMisc u)

def document (s : List Char) : Except Stop Element := do
  let (declared, r) ← if startsDeclaration s then declaration s else pure ({}, s)
  let (entities, t) ← prolog declared.standalone r
  match t with
  | '<' :: u =>
    let (root, v) ← rootElement (.ofText entities s) u
    let rest ← skipMisc v
    if rest.isEmpty then return root else throw ⟨rest⟩
  | _ => throw ⟨t⟩

/-- The text after a byte order mark. -/
def skipMark : List Char → List Char
  | c :: r => if c.toNat = 0xfeff then r else c :: r
  | [] => []

/-- The root element of a document, or the line of the first mistake. -/
def read (s : List Char) : Except Int Element :=
  let text := joinLineEnds (skipMark s)
  (document text).mapError fun stop => 1 + text.count '\n' - stop.rest.count '\n'

end CiteStyle.Xml
