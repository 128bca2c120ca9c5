import CiteStyle.Table

/-!
The element tree of a style or locale document.

An element has a tag, attributes, children that are elements or runs of text, and the line on
which its start tag ends. Line zero means that the place is unknown.
-/

namespace CiteStyle

/-- A child of an element: a run of text or an element. -/
inductive Node where
  | text (value : String)
  | element (tag : String) (attributes : Table String) (children : List Node) (line : Int)
  deriving Inhabited

/-- An element on its own. -/
structure Element where
  tag : String
  attributes : Table String
  children : List Node
  line : Int
  deriving Inhabited

namespace Node

def element? : Node → Option Element
  | text _ => none
  | element tag attributes children line => some ⟨tag, attributes, children, line⟩

def text? : Node → Option String
  | text value => some value
  | element .. => none

def elements (nodes : List Node) : List Element := nodes.filterMap element?

@[simp] theorem elements_nil : elements [] = [] := rfl

@[simp] theorem elements_text (value : String) (rest : List Node) :
    elements (text value :: rest) = elements rest := rfl

@[simp] theorem elements_element (tag : String) (attributes : Table String)
    (children : List Node) (line : Int) (rest : List Node) :
    elements (element tag attributes children line :: rest)
      = ⟨tag, attributes, children, line⟩ :: elements rest := rfl

end Node

namespace Element

def toNode (e : Element) : Node := .element e.tag e.attributes e.children e.line

def elements (e : Element) : List Element := Node.elements e.children

def find? (e : Element) (tag : String) : Option Element := e.elements.find? (·.tag == tag)

/-- The text that stands directly in the element. -/
def text (e : Element) : String := String.join (e.children.filterMap Node.text?)

/-- The line of the element, unless its place is unknown. -/
def place? (e : Element) : Option Int := if e.line = 0 then none else some e.line

def attribute? (e : Element) (name : String) : Option String := e.attributes.get? name

theorem element?_toNode (e : Element) : e.toNode.element? = some e := rfl

end Element

theorem Node.eq_toNode_of_element? {n : Node} {e : Element} (h : n.element? = some e) :
    n = e.toNode := by
  cases n with
  | text => simp [Node.element?] at h
  | element => simp only [Node.element?, Option.some.injEq] at h; subst h; rfl

end CiteStyle
