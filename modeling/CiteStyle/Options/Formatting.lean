import CiteStyle.Fault
import CiteStyle.Number.Literal
import CiteStyle.Number.Shortest
import CiteStyle.Table

/-!
How a bibliography is set, from its options.

Each of four options becomes a typed value or is refused. Alignment of the second field is off
unless it is set; the other three are truth values or numbers.
-/

namespace CiteStyle

/-- Where the second field of an entry is aligned. -/
inductive Alignment where
  | flush | margin
  deriving DecidableEq, Repr

def Alignment.toString : Alignment → String
  | flush => "flush"
  | margin => "margin"

def Alignment.ofString? (s : String) : Option Alignment :=
  if s = "flush" then some .flush else if s = "margin" then some .margin else none

inductive FormattingValue where
  | flag (value : Bool)
  | integer (value : Int)
  | real (value : Double)
  | alignment (value : Alignment)
  deriving DecidableEq, Repr

namespace FormattingValue

/-- The value of a number: whole numbers are exact. -/
def ofDouble (d : Double) : FormattingValue :=
  match d.integer? with
  | some n => integer n
  | none => real d

def shown : FormattingValue → String
  | flag value => if value then "True" else "False"
  | integer value => toString value
  | real value => value.text
  | alignment value => Text.Quoted.ofString value.toString

end FormattingValue

namespace Formatting

def alignmentKey : String := "second-field-align"

/-- The options that are truth values or numbers, in the order in which they are looked at. -/
def measureKeys : List String := ["hanging-indent", "line-spacing", "entry-spacing"]

/-- The value of a truth value or number. -/
def measure (key value : String) : Except BadOption FormattingValue :=
  if value = "true" then .ok (.flag true)
  else if value = "false" then .ok (.flag false)
  else if (Alignment.ofString? value).isSome then .error ⟨key, value, .unstated⟩
  else
    match Number.parse? value.toList with
    | some d => .ok (.ofDouble d)
    | none => .error ⟨key, value, .number⟩

def alignment (value : String) : Except BadOption FormattingValue :=
  if value = "true" then .error ⟨alignmentKey, value, .unstated⟩
  else if value = "false" then .ok (.flag false)
  else
    match Alignment.ofString? value with
    | some a => .ok (.alignment a)
    | none => .error ⟨alignmentKey, value, .alignment⟩

/-- The values of those among some keys that are set, in order, up to the first bad one. -/
def measures (options : Table String) :
    List String → Except BadOption (List (String × FormattingValue))
  | [] => .ok []
  | key :: rest =>
    match options.get? key with
    | none => measures options rest
    | some value =>
      match measure key value with
      | .error b => .error b
      | .ok v =>
        match measures options rest with
        | .error b => .error b
        | .ok more => .ok ((key, v) :: more)

def parameters (options : Table String) : Except BadOption (List (String × FormattingValue)) :=
  match measures options measureKeys with
  | .error b => .error b
  | .ok values =>
    match options.get? alignmentKey with
    | none => .ok (values ++ [(alignmentKey, .flag false)])
    | some value => (alignment value).map fun v => values ++ [(alignmentKey, v)]

end Formatting

end CiteStyle
