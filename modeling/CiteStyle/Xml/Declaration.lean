import CiteStyle.Xml.Reader

/-!
The XML declaration at the start of a document: a version, then perhaps an encoding, then perhaps
whether the document stands alone.
-/

namespace CiteStyle.Xml

/-- What a declaration says that matters to the reader. -/
structure Declaration where
  encoding : Option (List Char) := none
  standalone : Bool := false
  deriving DecidableEq, Repr

/-- The opening of a declaration; white space must follow. -/
def declarationOpening : List Char := "<?xml".toList

def startsDeclaration (s : List Char) : Bool :=
  ((skip? declarationOpening s).bind List.head?).any isSpace

def pseudoValue (accepted : Char → Bool) (s : List Char) : Except Stop (List Char × List Char) :=
  match expect ['='] (skipSpace s) with
  | .error e => .error e
  | .ok r => literal accepted (skipSpace r)

def isKnownVersion : List Char → Bool
  | '1' :: '.' :: r => r.all Char.isDigit
  | _ => false

def isEncodingName : List Char → Bool
  | c :: r => c.isAlpha && r.all fun d => d.isAlphanum || d == '.' || d == '_' || d == '-'
  | [] => false

/-- The part after the encoding. -/
def standalonePart (encoding : Option (List Char)) (s : List Char) :
    Except Stop (Declaration × List Char) :=
  match skip? "standalone".toList s with
  | none => (expect "?>".toList s).map fun r => (⟨encoding, false⟩, r)
  | some r =>
    match pseudoValue Char.isAlpha r with
    | .error e => .error e
    | .ok (value, t) =>
      if value == "yes".toList || value == "no".toList then
        (expect "?>".toList (skipSpace t)).map fun u => (⟨encoding, value == "yes".toList⟩, u)
      else .error ⟨t⟩

/-- The part after the version. -/
def encodingPart (s : List Char) : Except Stop (Declaration × List Char) :=
  match skip? "encoding".toList s with
  | none => standalonePart none s
  | some r =>
    match pseudoValue (fun c => c.isAlphanum || c == '.' || c == '_' || c == '-') r with
    | .error e => .error e
    | .ok (value, t) =>
      if isEncodingName value then
        match skip? "?>".toList t with
        | some u => .ok (⟨some value, false⟩, u)
        | none =>
          match expectSpace t with
          | .error e => .error e
          | .ok u => standalonePart (some value) u
      else .error ⟨t⟩

def declaration (s : List Char) : Except Stop (Declaration × List Char) := do
  let afterOpening ← expect declarationOpening s
  let atVersion ← expectSpace afterOpening
  let afterName ← expect "version".toList atVersion
  let (version, r) ← pseudoValue (fun c => c.isDigit || c == '.') afterName
  if !isKnownVersion version then throw ⟨r⟩
  match skip? "?>".toList r with
  | some t => return (⟨none, false⟩, t)
  | none => encodingPart (← expectSpace r)

end CiteStyle.Xml
