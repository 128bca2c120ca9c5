import CiteStyle.Xml.Reference
import CiteStyle.Xml.Section

/-!
Document type declarations, of which only the entities matter.

The internal subset is read. An external subset never is, so its mere mention makes unknown
entities possible, as does every reference to a parameter entity.
-/

namespace CiteStyle.Xml

/-- Identifies something outside the document: by a system identifier, or by a public one and a
system identifier. -/
def externalId? (s : List Char) : Except Stop (Option (List Char)) := do
  match skip? "SYSTEM".toList s with
  | some r =>
    let (_, t) ← literal isChar (← expectSpace r)
    return some t
  | none =>
    match skip? "PUBLIC".toList s with
    | some r =>
      let isPublic (c : Char) : Bool :=
        c.isAlphanum || " \r\n-'()+,./:=?;!*#@$_%".toList.contains c
      let (_, t) ← literal isPublic (← expectSpace r)
      let (_, u) ← literal isChar (← expectSpace t)
      return some u
    | none => return none

/-- The text of an internal entity as its declaration gives it: references by number are replaced,
references by name are kept. A parameter entity may not be referred to here. -/
def entityText? (s : List Char) : Option (List Char) :=
  match s with
  | [] => some []
  | '%' :: _ => none
  | '&' :: r =>
    match _h : reference r with
    | .error _ => none
    | .ok (.character c, t) => (entityText? t).map (c :: ·)
    | .ok (.entity name, t) =>
      (entityText? t).map fun rest => '&' :: (name.toList ++ ';' :: rest)
  | c :: r => (entityText? r).map (c :: ·)
termination_by s.length
decreasing_by
  · have := length_of_reference _h
    grind
  · have := length_of_reference _h
    grind
  · simp

/-- What an entity declaration gives after the name. -/
def entityDefinition (s : List Char) : Except Stop (Entity × List Char) := do
  match ← externalId? s with
  | some r =>
    match skip? "NDATA".toList (skipSpace r) with
    | some t =>
      let u ← expectSpace t
      match name? u with
      | some (_, v) => return (.unparsed, v)
      | none => throw ⟨u⟩
    | none => return (.external, r)
  | none =>
    let (raw, r) ← literal isChar s
    match entityText? raw with
    | some text => return (.internal text, r)
    | none => throw ⟨r⟩

/-- An entity declaration after its opening mark. Of several declarations of one entity the first
counts. -/
def entityDeclaration (entities : Entities) (s : List Char) :
    Except Stop (Entities × List Char) := do
  let start ← expectSpace s
  let (isParameter, atName) ← match start with
    | '%' :: r => (expectSpace r).map fun t => (true, t)
    | r => pure (false, r)
  match name? atName with
  | none => throw ⟨atName⟩
  | some (name, afterName) =>
    if name.contains ':' then throw ⟨afterName⟩
    let (entity, afterDefinition) ← entityDefinition (← expectSpace afterName)
    let r ← expect ['>'] (skipSpace afterDefinition)
    if isParameter then return (entities, r)
    else
      return ({ entities with
        declared := entities.declared.insertNew (String.ofList name) entity }, r)

/-- The text after a declaration that is passed over; its end does not count between quotation
marks. -/
def skipDeclaration (mark : Option Char) : List Char → Except Stop (List Char)
  | [] => .error ⟨[]⟩
  | c :: r =>
    if !isChar c then .error ⟨c :: r⟩
    else if mark = some c then skipDeclaration none r
    else if mark.isSome then skipDeclaration mark r
    else if c == '>' then .ok r
    else if c == '"' || c == '\x27' then skipDeclaration (some c) r
    else skipDeclaration none r

/-- One declaration of the internal subset. -/
def subsetItem (entities : Entities) (s : List Char) : Except Stop (Entities × List Char) :=
  match s with
  | '%' :: r =>
    match name? r with
    | some (_, ';' :: t) => .ok ({ entities with incomplete := true }, t)
    | _ => .error ⟨r⟩
  | '<' :: '?' :: r => (instruction r).map fun t => (entities, t)
  | '<' :: '!' :: '-' :: '-' :: r => (comment r).map fun t => (entities, t)
  | _ =>
    match skip? "<!ENTITY".toList s with
    | some r => entityDeclaration entities r
    | none =>
      let others := ["<!ELEMENT", "<!ATTLIST", "<!NOTATION"]
      match others.findSome? fun opening => skip? opening.toList s with
      | some r => (skipDeclaration none r).map fun t => (entities, t)
      | none => .error ⟨s⟩

/-- The declarations of the internal subset, at most `count` of them, and its end. -/
def subset : Nat → Entities → List Char → Except Stop (Entities × List Char)
  | 0, _, s => .error ⟨s⟩
  | count + 1, entities, s =>
    match skipSpace s with
    | ']' :: r => .ok (entities, r)
    | t =>
      match subsetItem entities t with
      | .error e => .error e
      | .ok (entities', r) => subset count entities' r

/-- A document type declaration after its opening mark. -/
def docType (standalone : Bool) (s : List Char) : Except Stop (Entities × List Char) := do
  let atName ← expectSpace s
  match name? atName with
  | none => throw ⟨atName⟩
  | some (_, afterName) =>
    let atId := skipSpace afterName
    let external? ← externalId? atId
    let start : Entities := ⟨.empty, external?.isSome⟩
    let afterId := skipSpace (external?.getD atId)
    let (entities, r) ← match afterId with
      | '[' :: t => subset (t.length + 1) start t
      | t => pure (start, t)
    let rest ← expect ['>'] (skipSpace r)
    return ({ entities with incomplete := entities.incomplete && !standalone }, rest)

end CiteStyle.Xml
