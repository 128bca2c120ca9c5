import CiteStyle.Rendering.Program

/-!
What rendering gives and what it looks at.

A rendered value carries its content, whether variables took part in it, and whether it came in
place of missing names. A run also keeps the trace of all that was rendered, in order.
-/

namespace CiteStyle

/-- The part that variables played in a rendered value. -/
inductive RenderedKind where
  | presentVariable | emptyVariables | textOnly
  deriving DecidableEq, Repr

/-- A rendered value; without content it is empty, as it is with the empty text. -/
structure Rendered where
  content : Option String
  kind : RenderedKind := .textOnly
  substituted : Bool := false
  deriving DecidableEq, Repr

namespace Rendered

/-- The value of variables that have nothing to show. -/
def empty : Rendered := ⟨none, .emptyVariables, false⟩

def text (r : Rendered) : String := r.content.getD ""

def isEmpty (r : Rendered) : Bool := r.text == ""

end Rendered

/-- The result of a program: a bare text or a rendered value. -/
inductive Output where
  | plain (value : String)
  | rendered (value : Rendered)
  deriving DecidableEq, Repr

namespace Output

def text : Output → String
  | plain value => value
  | rendered value => value.text

/-- The part that variables played; a bare text has none. -/
def kind? : Output → Option RenderedKind
  | plain _ => none
  | rendered value => some value.kind

/-- The output as a substitute for names: only a rendered value that is not empty can be one. -/
def asSubstitute? : Output → Option Rendered
  | plain _ => none
  | rendered value => if value.isEmpty then none else some { value with substituted := true }

end Output

/-- The value of a variable: one text or a list of them. -/
inductive ItemValue where
  | one (value : String)
  | many (values : List String)
  deriving DecidableEq, Repr

def ItemValue.text : ItemValue → String
  | one value => value
  | many values => ", ".intercalate values

/-- The value as names: a text is one name unless it is empty. -/
def ItemValue.names : ItemValue → List String
  | one value => if value = "" then [] else [value]
  | many values => values

/-- What one rendering is given: the item, whether its author is to be left out, and a number of
names that overrides counting. -/
structure Context where
  item : Table ItemValue := {}
  suppressAuthor : Bool := false
  count : Option Int := none

inductive Event where
  | element (tag : Tag) (attributes : Table String) (texts : List String)
  | nameList (vars : List String) (settings : NamesSettings)
  | count (text : String) (number : Int)

structure Run where
  output : Output
  trace : List Event

end CiteStyle
