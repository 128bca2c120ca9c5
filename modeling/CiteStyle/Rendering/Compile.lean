import CiteStyle.Fault
import CiteStyle.Node
import CiteStyle.Rendering.Program
import CiteStyle.Text.Blank

/-!
From rendering elements to programs.

Generic elements compile child by child. A `names` element needs variables and a `name` or `label`
child; the last child of a kind counts. Inside `substitute`, a `names` element without children
stands for its variables under the settings of the element around it; anything else compiles as it
would elsewhere. The first element that breaks a rule is the one reported.
-/

namespace CiteStyle

open Text (words)

def resolveTag (tag : String) (line : Int) : Except Misplacement Tag :=
  match Tag.ofString? tag with
  | some t => .ok t
  | none => .error ⟨.unknownElement, tag, line⟩

def Element.resolve (e : Element) : Except Misplacement Tag := resolveTag e.tag e.line

def namesVariables (attributes : Table String) (line : Int) : Except Misplacement (List String) :=
  match (words ((attributes.get? "variable").getD "").toList).map String.ofList with
  | [] => .error ⟨.withoutVariable, "names", line⟩
  | vars => .ok vars

/-- What stands in for missing names: variables under the settings of the element around, or a
program of its own. -/
inductive Substitute where
  | shorthand (vars : List String)
  | full (program : Program)

def Substitute.program (settings : NamesSettings) : Substitute → Program
  | shorthand vars => .nameList vars settings
  | full program => program

/-- The children of a `names` element, as far as they have been gathered. -/
structure NamesParts where
  name : Option Element := none
  label : Option (Table String) := none
  etAl : Table String := {}
  substitutes : List Substitute := []

/-- The attributes of `name-part` elements by their names; nothing else may stand in `name`. -/
def nameParts : List Element → Except Misplacement (List (String × Table String))
  | [] => .ok []
  | part :: rest =>
    match part.resolve with
    | .error m => .error m
    | .ok tag =>
      if tag = .namePart then
        match nameParts rest with
        | .error m => .error m
        | .ok parts => .ok (((part.attribute? "name").getD "", part.attributes) :: parts)
      else .error ⟨.notAllowedInside "name", part.tag, part.line⟩

def NamesParts.program (parts : NamesParts) (vars : List String) (attributes : Table String)
    (line : Int) : Except Misplacement Program :=
  if parts.name.isNone && parts.label.isNone then
    .error ⟨.withoutNameOrLabel, "names", line⟩
  else
    match nameParts ((parts.name.map Element.elements).getD []) with
    | .error m => .error m
    | .ok entries =>
      let settings : NamesSettings := {
        names := attributes
        name := (parts.name.map Element.attributes).getD {}
        parts := .ofList entries
        etAl := parts.etAl
        label := parts.label }
      .ok (.names vars settings (parts.substitutes.map (·.program settings)))

/-- Whether an element stands for its variables alone when it is a substitute. -/
def isShorthand (tag : String) (children : List Node) : Bool :=
  tag == "names" && (Node.elements children).isEmpty

mutual

def Node.compile : Node → Except Misplacement Program
  | .text value => .ok (.text value)
  | .element tag attributes children line =>
    match resolveTag tag line with
    | .error m => .error m
    | .ok known =>
      if known = .names then
        match namesVariables attributes line with
        | .error m => .error m
        | .ok vars =>
          match gatherNames {} children with
          | .error m => .error m
          | .ok parts => parts.program vars attributes line
      else if known.isNamesOnly then .error ⟨.outsideNames, tag, line⟩
      else if known.isGeneric then
        match compileAll children with
        | .error m => .error m
        | .ok programs => .ok (.element known attributes programs)
      else .error ⟨.notRendering, tag, line⟩

def compileAll : List Node → Except Misplacement (List Program)
  | [] => .ok []
  | node :: rest =>
    match node.compile with
    | .error m => .error m
    | .ok program =>
      match compileAll rest with
      | .error m => .error m
      | .ok programs => .ok (program :: programs)

/-- Gathers the children of a `names` element; text among them is ignored. -/
def gatherNames (parts : NamesParts) : List Node → Except Misplacement NamesParts
  | [] => .ok parts
  | .text _ :: rest => gatherNames parts rest
  | .element tag attributes children line :: rest =>
    match resolveTag tag line with
    | .error m => .error m
    | .ok .name => gatherNames { parts with name := some ⟨tag, attributes, children, line⟩ } rest
    | .ok .label => gatherNames { parts with label := some attributes } rest
    | .ok .etAl => gatherNames { parts with etAl := attributes } rest
    | .ok .substitute =>
      match compileSubstitutes children with
      | .error m => .error m
      | .ok more =>
        gatherNames { parts with substitutes := parts.substitutes ++ more } rest
    | .ok _ => .error ⟨.notAllowedInside "names", tag, line⟩

def compileSubstitutes : List Node → Except Misplacement (List Substitute)
  | [] => .ok []
  | .text _ :: rest => compileSubstitutes rest
  | .element tag attributes children line :: rest =>
    if isShorthand tag children then
      match namesVariables attributes line with
      | .error m => .error m
      | .ok vars =>
        match compileSubstitutes rest with
        | .error m => .error m
        | .ok more => .ok (.shorthand vars :: more)
    else
      match Node.compile (.element tag attributes children line) with
      | .error m => .error m
      | .ok program =>
        match compileSubstitutes rest with
        | .error m => .error m
        | .ok more => .ok (.full program :: more)

end

end CiteStyle
