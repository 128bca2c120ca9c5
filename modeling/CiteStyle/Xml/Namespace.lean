import CiteStyle.Xml.Tag

/-!
Namespaces in force at an element.

Names lose their qualifiers once they have been checked: every qualifier must be bound, and no two
attributes of one tag may have the same name in the same namespace.
-/

namespace CiteStyle.Xml

/-- The namespaces bound around an element, the innermost binding of a qualifier first. -/
abbrev Scope := List (String × String)

/-- The scope of a document: only `xml` is bound. -/
def Scope.document : Scope := [("xml", xmlNamespace)]

/-- The scope inside a tag. Bindings for unqualified names are left out, since no check depends on
them. -/
def Scope.enter (scope : Scope) (attributes : List Attribute) : Scope :=
  attributes.foldl (fun inner a =>
    match a.name.declared? with
    | some (some qualifier) => (qualifier, a.value) :: inner
    | _ => inner) scope

/-- Whether a name is unqualified or its qualifier is bound. -/
def Scope.binds (scope : Scope) (n : QName) : Bool :=
  match n.qualifier with
  | none => true
  | some q => (List.lookup q scope).isSome

/-- The name an attribute has once its qualifier is replaced by the namespace. -/
def Scope.expand (scope : Scope) (n : QName) : Option String × String :=
  (n.qualifier.bind fun q => List.lookup q scope, n.base)

/-- The attributes of a tag that declare no namespace. -/
def plainAttributes (attributes : List Attribute) : List Attribute :=
  attributes.filter (·.name.declared?.isNone)

def allDistinct {α : Type} [BEq α] : List α → Bool
  | [] => true
  | a :: rest => !rest.contains a && allDistinct rest

/-- Whether a tag makes sense in the scope inside it. -/
def Scope.accepts (scope : Scope) (name : QName) (attributes : List Attribute) : Bool :=
  let names := (plainAttributes attributes).map Attribute.name
  scope.binds name && names.all scope.binds &&
    allDistinct names && allDistinct (names.map scope.expand)

/-- The attributes of an element under their names without qualifier. Where two share a name, the
first gives the place and the last the value. -/
def attributeTable (attributes : List Attribute) : Table String :=
  .ofList ((plainAttributes attributes).map fun a => (a.name.base, a.value))

end CiteStyle.Xml
