import CiteStyle.Table
import CiteStyle.Tag

/-!
Compiled rendering elements.

A program is what remains of an element once its place has been checked: literal text, a generic
element with its compiled children, a list of names under the settings of its element, or a whole
`names` element with what may take the place of missing names.
-/

namespace CiteStyle

structure NamesSettings where
  names : Table String
  name : Table String
  parts : Table (Table String)
  etAl : Table String
  label : Option (Table String)

/-- A label stands before the names unless it is written out among the children. -/
def NamesSettings.labelBeforeNames (s : NamesSettings) : Bool := s.label.isNone

def NamesSettings.countsOnly (s : NamesSettings) : Bool := s.name.get? "form" == some "count"

inductive Program where
  | text (value : String)
  | element (tag : Tag) (attributes : Table String) (children : List Program)
  | nameList (vars : List String) (settings : NamesSettings)
  | names (vars : List String) (settings : NamesSettings) (substitutes : List Program)
  deriving Inhabited

end CiteStyle
