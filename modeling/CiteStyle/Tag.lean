/-! The vocabulary of elements that styles and locales are written in. -/

namespace CiteStyle

inductive Tag where
  | style | info | locale | citation | bibliography | macroDefinition
  | layout | sort | key
  | text | date | datePart | number | label | group | choose | ifBranch | elseIfBranch | elseBranch
  | names | name | namePart | etAl | substitute
  | styleOptions | terms | term | single | multiple
  deriving DecidableEq, Repr

namespace Tag

def toString : Tag → String
  | style => "style"
  | info => "info"
  | locale => "locale"
  | citation => "citation"
  | bibliography => "bibliography"
  | macroDefinition => "macro"
  | layout => "layout"
  | sort => "sort"
  | key => "key"
  | text => "text"
  | date => "date"
  | datePart => "date-part"
  | number => "number"
  | label => "label"
  | group => "group"
  | choose => "choose"
  | ifBranch => "if"
  | elseIfBranch => "else-if"
  | elseBranch => "else"
  | names => "names"
  | name => "name"
  | namePart => "name-part"
  | etAl => "et-al"
  | substitute => "substitute"
  | styleOptions => "style-options"
  | terms => "terms"
  | term => "term"
  | single => "single"
  | multiple => "multiple"

instance : ToString Tag := ⟨toString⟩

def all : List Tag := [
  style, info, locale, citation, bibliography, macroDefinition, layout, sort, key, text, date,
  datePart, number, label, group, choose, ifBranch, elseIfBranch, elseBranch, names, name,
  namePart, etAl, substitute, styleOptions, terms, term, single, multiple]

def ofString? (s : String) : Option Tag := all.find? (·.toString == s)

/-- Elements that render their children first and then themselves, all in one way. -/
def isGeneric : Tag → Bool
  | layout | macroDefinition | sort | key | text | date | datePart | number | label | group
  | choose | ifBranch | elseIfBranch | elseBranch => true
  | _ => false

/-- Elements that have a meaning only inside `names`. -/
def isNamesOnly : Tag → Bool
  | name | namePart | etAl | substitute => true
  | _ => false

theorem ofString?_toString (t : Tag) : ofString? t.toString = some t := by
  cases t <;> decide +kernel

theorem toString_of_ofString? {s : String} {t : Tag} (h : ofString? s = some t) :
    t.toString = s := by
  simpa using List.find?_some h

theorem ofString?_eq_some_iff {s : String} {t : Tag} : ofString? s = some t ↔ t.toString = s :=
  ⟨toString_of_ofString?, fun h => h ▸ ofString?_toString t⟩

end Tag

end CiteStyle
