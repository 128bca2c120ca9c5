import CiteStyle.Number.Shortest
import CiteStyle.Text.Quoted
import CiteStyle.Toml.Moment

/-! Values of configuration files. -/

namespace CiteStyle

inductive Toml where
  | string (value : String)
  | boolean (value : Bool)
  | integer (value : Int)
  | real (value : Double)
  | moment (value : Toml.Moment)
  | array (items : List Toml)
  | table (entries : List (String × Toml))
  deriving Inhabited

namespace Toml

mutual

/-- A value inside another one: texts are quoted, and moments are given by their parts. -/
def nested : Toml → String
  | string value => Text.Quoted.ofString value
  | boolean value => if value then "True" else "False"
  | integer value => toString value
  | real value => value.text
  | moment value => value.nested
  | array items => "[" ++ nestedItems items ++ "]"
  | table entries => "\x7b" ++ nestedEntries entries ++ "\x7d"

def nestedItems : List Toml → String
  | [] => ""
  | [item] => nested item
  | item :: rest => nested item ++ ", " ++ nestedItems rest

def nestedEntries : List (String × Toml) → String
  | [] => ""
  | [(key, value)] => Text.Quoted.ofString key ++ ": " ++ nested value
  | (key, value) :: rest =>
    Text.Quoted.ofString key ++ ": " ++ nested value ++ ", " ++ nestedEntries rest

end

/-- The most digits of a whole number that stands in base ten. -/
def maxDigits : Nat := 4300

mutual

/-- Whether a value can be given as text: no whole number in it has too many digits. A file may hold
such a number in another base. -/
def hasText : Toml → Bool
  | integer value => value.natAbs < 10 ^ maxDigits
  | array items => itemsHaveText items
  | table entries => entriesHaveText entries
  | _ => true

def itemsHaveText : List Toml → Bool
  | [] => true
  | item :: rest => hasText item && itemsHaveText rest

def entriesHaveText : List (String × Toml) → Bool
  | [] => true
  | (_, value) :: rest => hasText value && entriesHaveText rest

end

/-- A value as text: a text is itself. -/
def text : Toml → String
  | string value => value
  | moment value => value.text
  | other => other.nested

def get? (key : String) : Toml → Option Toml
  | table entries => entries.lookup key
  | _ => none

def string? : Toml → Option String
  | string value => some value
  | _ => none

def array? : Toml → Option (List Toml)
  | array items => some items
  | _ => none

end Toml

end CiteStyle
