import CiteStyle.Node
import CiteStyle.Text.Blank
import CiteStyle.Xml.Namespace
import CiteStyle.Xml.Token

/-!
Element content as a tree.

The reader keeps the open elements on a stack. Text gathers in the innermost one until anything
else comes; a text of white space only is dropped then. Elements nest at most 256 deep.
-/

namespace CiteStyle.Xml

/-- An open element. Children and text are kept last one first. -/
structure Frame where
  name : QName
  attributes : Table String
  line : Int
  scope : Scope
  children : List Node := []
  text : List Char := []

namespace Frame

def write (f : Frame) (s : List Char) : Frame := { f with text := s.reverse ++ f.text }

/-- The element with its text made a child, unless that is white space only. -/
def settle (f : Frame) : Frame :=
  if Text.isAllBlank f.text then { f with text := [] }
  else { f with text := [], children := .text (String.ofList f.text.reverse) :: f.children }

def push (f : Frame) (child : Element) : Frame :=
  { f with children := child.toNode :: f.children }

def close (f : Frame) : Element :=
  ⟨f.name.base, f.attributes, f.settle.children.reverse, f.line⟩

end Frame

def maxDepth : Nat := 256

/-- How reading content ends: the outermost open element was closed, or the text ended within some
element. -/
inductive Ending where
  | closed (root : Element) (rest : List Char)
  | unfinished (depth : Nat)

/-- What does not change while content is read: the declared entities, which of them may be
referred to in content under the namespaces in force, and the number of line feeds in the whole
text and one, from which lines are counted. -/
structure Setting where
  entities : Entities
  mayRefer : Scope → String → Bool
  lineCount : Int

/-- The line on which a rest of the text begins. -/
def Setting.lineOf (setting : Setting) (rest : List Char) : Int :=
  setting.lineCount - rest.count '\n'

/-- Opens an element inside others, and closes it at once if its tag says so. Gives nothing if the
tag may not stand there. -/
def openElement (line : Int) (top : Frame) (below : List Frame) (name : QName)
    (attributes : List Attribute) (closed : Bool) : Option (Frame × List Frame) :=
  let scope := top.scope.enter attributes
  if scope.accepts name attributes && below.length + 2 ≤ maxDepth then
    let frame : Frame := ⟨name, attributeTable attributes, line, scope, [], []⟩
    if closed then some (top.settle.push frame.close, below) else some (frame, top.settle :: below)
  else none

/-- Reads the content of the open elements `top` and, around it, `below`. -/
def content (setting : Setting) (top : Frame) (below : List Frame) (s : List Char) :
    Except Stop Ending :=
  match s with
  | [] => .ok (.unfinished below.length)
  | c :: cs =>
    match _h : token setting.entities (c :: cs) with
    | .error e => .error e
    | .ok (.text piece, r) => content setting (top.write piece) below r
    | .ok (.gap, r) => content setting top.settle below r
    | .ok (.entity name, r) =>
      if setting.mayRefer top.scope name then content setting top.settle below r else .error ⟨r⟩
    | .ok (.opening name attributes closed, r) =>
      match openElement (setting.lineOf r) top below name attributes closed with
      | some (top', below') => content setting top' below' r
      | none => .error ⟨r⟩
    | .ok (.closing name, r) =>
      if name = top.name.written then
        match below with
        | [] => .ok (.closed top.close r)
        | f :: fs => content setting (f.push top.close) fs r
      else .error ⟨r⟩
termination_by s.length
decreasing_by all_goals exact length_of_token _h

/-- What is left to do at a piece of content. -/
theorem content_cons (setting : Setting) (top : Frame) (below : List Frame) (c : Char)
    (cs : List Char) :
    content setting top below (c :: cs) =
      match token setting.entities (c :: cs) with
      | .error e => .error e
      | .ok (.text piece, r) => content setting (top.write piece) below r
      | .ok (.gap, r) => content setting top.settle below r
      | .ok (.entity name, r) =>
        if setting.mayRefer top.scope name then content setting top.settle below r else .error ⟨r⟩
      | .ok (.opening name attributes closed, r) =>
        match openElement (setting.lineOf r) top below name attributes closed with
        | some (top', below') => content setting top' below' r
        | none => .error ⟨r⟩
      | .ok (.closing name, r) =>
        if name = top.name.written then
          match below with
          | [] => .ok (.closed top.close r)
          | f :: fs => content setting (f.push top.close) fs r
        else .error ⟨r⟩ := by
  rw [content]
  split <;> simp_all only

/-- Whether an entity may be referred to in content: its text must be content by itself. Inside it,
references may nest as deep as there are entities. -/
def Entities.mayRefer (entities : Entities) : Nat → Scope → String → Bool
  | 0, _, _ => false
  | depth + 1, scope, name =>
    match entities.declared.get? name with
    | none => entities.incomplete
    | some .external => true
    | some .unparsed => false
    | some (.internal text) =>
      let inside : Frame := ⟨⟨none, ""⟩, .empty, 0, scope, [], []⟩
      match content ⟨entities, entities.mayRefer depth, 0⟩ inside [] text with
      | .ok (.unfinished 0) => true
      | _ => false

def Setting.ofText (entities : Entities) (s : List Char) : Setting :=
  ⟨entities, entities.mayRefer (entities.declared.size + 1), 1 + s.count '\n'⟩

/-- Reads an element after the less-than sign of its start tag. -/
def rootElement (setting : Setting) (s : List Char) : Except Stop (Element × List Char) :=
  match startTag setting.entities s with
  | .error e => .error e
  | .ok ((name, attributes, closed), r) =>
    let scope := Scope.document.enter attributes
    if scope.accepts name attributes then
      let frame : Frame := ⟨name, attributeTable attributes, setting.lineOf r, scope, [], []⟩
      if closed then .ok (frame.close, r)
      else
        match content setting frame [] r with
        | .error e => .error e
        | .ok (.closed root t) => .ok (root, t)
        | .ok (.unfinished _) => .error ⟨[]⟩
    else .error ⟨r⟩

end CiteStyle.Xml
