import CiteStyle.Xml.Reference
import CiteStyle.Xml.Uri

/-!
Start and end tags.

A start tag gives its name, its attributes in order, and whether it closes its element at once.
A namespace declaration that is forbidden whatever surrounds it stops the reader directly after
its value.
-/

namespace CiteStyle.Xml

/-- A name, with its qualifier if it has one. -/
structure QName where
  qualifier : Option String
  base : String
  deriving DecidableEq, Repr

def QName.written (n : QName) : String :=
  match n.qualifier with
  | some q => q ++ ":" ++ n.base
  | none => n.base

structure Attribute where
  name : QName
  value : String
  deriving DecidableEq, Repr

/-- A name in which a colon separates a qualifier from the rest. -/
def qualifiedName : Reader QName := fun s =>
  match plainName? s with
  | none => .error ⟨s⟩
  | some (first, ':' :: r) =>
    match plainName? r with
    | none => .error ⟨r⟩
    | some (_, ':' :: t) => .error ⟨t⟩
    | some (second, t) => .ok (⟨some (String.ofList first), String.ofList second⟩, t)
  | some (first, r) => .ok (⟨none, String.ofList first⟩, r)

theorem length_of_qualifiedName {s r : List Char} {n : QName}
    (h : qualifiedName s = .ok (n, r)) : r.length < s.length := by
  unfold qualifiedName at h
  split at h
  · simp at h
  · split at h <;> grind [→ length_of_plainName?]
  · grind [→ length_of_plainName?]

/-- An attribute: name, equals sign and value between quotation marks. -/
def singleAttribute (entities : Entities) : Reader Attribute := fun s =>
  match qualifiedName s with
  | .error e => .error e
  | .ok (name, r) =>
    match skipSpace r with
    | '=' :: t =>
      match skipSpace t with
      | q :: u =>
        if q == '"' || q == '\x27' then
          match attributeText entities.attributeText? (some q) u with
          | .error e => .error e
          | .ok (value, v) => .ok (⟨name, String.ofList value⟩, v)
        else .error ⟨q :: u⟩
      | [] => .error ⟨[]⟩
    | t => .error ⟨t⟩

theorem length_of_singleAttribute {entities : Entities} {s r : List Char} {a : Attribute}
    (h : singleAttribute entities s = .ok (a, r)) : r.length < s.length := by
  unfold singleAttribute at h
  split at h
  · simp at h
  · next n t hn =>
    have h1 := length_of_qualifiedName hn
    have h2 := length_skipSpace_le t
    split at h
    · next u hu =>
      have h3 := length_skipSpace_le u
      rw [hu, List.length_cons] at h2
      split at h
      · next q v hv =>
        rw [hv, List.length_cons] at h3
        split at h
        · split at h <;> grind [→ length_of_attributeText]
        · simp at h
      · simp at h
    · simp at h

def xmlNamespace : String := "http://www.w3.org/XML/1998/namespace"

/-- The namespace of declarations, which no name may be bound to. -/
def declarationNamespace : String := "http://www.w3.org/2000/xmlns/"

/-- The qualifier that an attribute declares, `none` inside for unqualified names. -/
def QName.declared? (n : QName) : Option (Option String) :=
  match n.qualifier with
  | none => if n.base = "xmlns" then some none else none
  | some q => if q = "xmlns" then some (some n.base) else none

/-- Whether a qualifier, or unqualified names, may be bound to a namespace. -/
def mayBind (qualifier : Option String) (uri : String) : Bool :=
  match qualifier with
  | none =>
    uri.isEmpty ||
      (Uri.isReference uri.toList && uri != xmlNamespace && uri != declarationNamespace)
  | some q =>
    if q = "xml" then uri == xmlNamespace
    else
      q != "xmlns" && uri != xmlNamespace && uri != declarationNamespace && !uri.isEmpty &&
        Uri.isReference uri.toList

/-- Whether an attribute that follows others in its tag may stand there as a declaration. The
binding of `xml` never changes anything and may be repeated. -/
def mayDeclare (earlier : List QName) (a : Attribute) : Bool :=
  match a.name.declared? with
  | none => true
  | some qualifier =>
    mayBind qualifier a.value && (qualifier == some "xml" || !earlier.contains a.name)

/-- The attributes of a start tag and its end, with the names of the attributes before. -/
def tagRest (entities : Entities) (earlier : List QName) (s : List Char) :
    Except Stop ((List Attribute × Bool) × List Char) :=
  match _hs : skipSpace s with
  | '>' :: r => .ok (([], false), r)
  | '/' :: '>' :: r => .ok (([], true), r)
  | t =>
    if t.length = s.length then .error ⟨s⟩
    else
      match _ha : singleAttribute entities t with
      | .error e => .error e
      | .ok (a, r) =>
        if mayDeclare earlier a then
          match tagRest entities (a.name :: earlier) r with
          | .error e => .error e
          | .ok ((rest, closed), u) => .ok ((a :: rest, closed), u)
        else .error ⟨r⟩
termination_by s.length
decreasing_by
  have h1 := length_of_singleAttribute _ha
  have h2 := length_skipSpace_le s
  grind

theorem length_of_tagRest {entities : Entities} {earlier : List QName} {s r : List Char}
    {x : List Attribute × Bool} (h : tagRest entities earlier s = .ok (x, r)) :
    r.length < s.length := by
  induction earlier, s using tagRest.induct entities generalizing x r <;>
    unfold tagRest at h <;>
    grind [→ length_of_singleAttribute, length_skipSpace_le]

/-- A start tag after its opening mark. -/
def startTag (entities : Entities) : Reader (QName × List Attribute × Bool) := fun s =>
  match qualifiedName s with
  | .error e => .error e
  | .ok (name, r) =>
    match tagRest entities [] r with
    | .error e => .error e
    | .ok ((attributes, closed), t) => .ok ((name, attributes, closed), t)

theorem length_of_startTag {entities : Entities} {s r : List Char}
    {x : QName × List Attribute × Bool} (h : startTag entities s = .ok (x, r)) :
    r.length < s.length := by
  unfold startTag at h
  split at h
  · simp at h
  · split at h <;> grind [→ length_of_qualifiedName, → length_of_tagRest]

def endTag : Reader String := fun s =>
  let (name, r) := (name? s).getD ([], s)
  match skipSpace r with
  | '>' :: t => .ok (String.ofList name, t)
  | t => .error ⟨t⟩

theorem length_of_endTag {s r : List Char} {n : String} (h : endTag s = .ok (n, r)) :
    r.length < s.length := by
  have hr : ((name? s).getD ([], s)).2.length ≤ s.length := by
    cases hn : name? s with
    | none => simp
    | some p => exact Nat.le_of_lt (length_of_name? hn)
  have hs := length_skipSpace_le ((name? s).getD ([], s)).2
  simp only [endTag] at h
  split at h <;> grind

end CiteStyle.Xml
