import CiteStyle.Log
import CiteStyle.Rendering.Compile

/-!
The `citation` and `bibliography` elements of a style.

Either may begin with a `sort` element and must have a `layout` next. What follows the layout has
no effect and is only told of.
-/

namespace CiteStyle

structure Sorting where
  program : Program
  ascending : List Bool

/-- How entries are laid out and sorted. -/
structure Arrangement where
  layout : Program
  layoutAttributes : Table String
  sorting : Option Sorting

/-- A compiled `citation` or `bibliography` element. -/
structure Fragment where
  options : Table String
  arrangement : Arrangement

/-- The `sort` element that begins some elements, if there is one, and the elements after it. -/
def splitSort : List Element → Option Element × List Element
  | first :: rest => if first.tag = "sort" then (some first, rest) else (none, first :: rest)
  | [] => (none, [])

def sortDirections (sort : Element) : List Bool :=
  sort.elements.map fun key => key.attribute? "sort" != some "descending"

def compileSort (sort : Element) : Except Misplacement Sorting :=
  sort.toNode.compile.map fun program => ⟨program, sortDirections sort⟩

def compileSort? : Option Element → Except Misplacement (Option Sorting)
  | none => .ok none
  | some sort => (compileSort sort).map some

def compileLayout (sort : Option Element) (layout : Element) :
    Except Misplacement Arrangement :=
  match compileSort? sort with
  | .error m => .error m
  | .ok sorting =>
    layout.toNode.compile.map fun program => ⟨program, layout.attributes, sorting⟩

def Element.fragment (e : Element) : Logged Misplacement Fragment :=
  match splitSort e.elements with
  | (_, []) => .fail ⟨.withoutLayout, e.tag, e.line⟩
  | (sort, layout :: extras) =>
    if layout.tag = "layout" then
      ⟨extras.map fun x => .ignoredElement x.tag e.tag x.line,
        (compileLayout sort layout).map fun a => ⟨e.attributes, a⟩⟩
    else .fail ⟨.withoutLayout, e.tag, e.line⟩

end CiteStyle
