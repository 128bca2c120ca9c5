import CiteStyle.Text.Quoted

/-!
Everything that can be wrong with a style, by cause, and the words for it.

There are four kinds: a document cannot be read, it is not well-formed, an element stands where it
may not or lacks something, or an option has a value it cannot have.
-/

namespace CiteStyle

/-- How an element breaks the rules for its place. -/
inductive Violation where
  | unknownElement
  | outsideNames
  | notRendering
  | notAllowedInside (parent : String)
  | withoutVariable
  | withoutNameOrLabel
  | withoutName
  | withoutLayout
  | notDocument (expected : String)
  | noPart (part : String)
  deriving DecidableEq, Repr

structure Misplacement where
  violation : Violation
  tag : String
  line : Int
  deriving DecidableEq, Repr

def bracketed (tag : String) : String := "<" ++ tag ++ ">"

def Misplacement.message (m : Misplacement) : String :=
  match m.violation with
  | .unknownElement => "unknown element " ++ bracketed m.tag
  | .outsideNames => bracketed m.tag ++ " must appear inside <names>"
  | .notRendering => bracketed m.tag ++ " is not a rendering element"
  | .notAllowedInside parent => bracketed m.tag ++ " is not allowed inside " ++ bracketed parent
  | .withoutVariable => bracketed m.tag ++ " requires a variable attribute"
  | .withoutNameOrLabel => bracketed m.tag ++ " needs a <name> or <label> child"
  | .withoutName => bracketed m.tag ++ " requires a name attribute"
  | .withoutLayout => bracketed m.tag ++ " is missing its <layout>"
  | .notDocument expected =>
    "expected a " ++ bracketed expected ++ " document, found " ++ bracketed m.tag
  | .noPart part => "style has no " ++ bracketed part ++ " layout"

/-- What an option should have held. -/
inductive Expectation where
  | unstated | alignment | number
  deriving DecidableEq, Repr

structure BadOption where
  key : String
  value : String
  expectation : Expectation
  deriving DecidableEq, Repr

def BadOption.message (b : BadOption) : String :=
  "invalid value for " ++ b.key ++ ": " ++ Text.Quoted.ofString b.value ++
    match b.expectation with
    | .unstated => ""
    | .alignment => " (expected flush or margin)"
    | .number => " (expected a number)"

/-- Something wrong with a style or locale document. -/
inductive Fault where
  | unreadable (given reason : String)
  | empty
  | malformed (line : Int)
  | misplaced (m : Misplacement)
  | badOption (b : BadOption)
  deriving DecidableEq, Repr

inductive FaultKind where
  | input | wellFormedness | placement | option
  deriving DecidableEq, Repr

namespace Fault

def kind : Fault → FaultKind
  | unreadable .. => .input
  | empty => .input
  | malformed _ => .wellFormedness
  | misplaced _ => .placement
  | badOption _ => .option

def message : Fault → String
  | unreadable given reason => "cannot read style " ++ Text.Quoted.ofString given ++ ": " ++ reason
  | empty => "empty style document"
  | malformed _ => "malformed XML"
  | misplaced m => m.message
  | badOption b => b.message

/-- The line of a fault, if it has a known place. -/
def line? : Fault → Option Int
  | malformed line => some line
  | misplaced m => if m.line = 0 then none else some m.line
  | _ => none

end Fault

/-- A fault with the text of the document it is shown in; the text is empty if there is none. -/
structure Failure where
  fault : Fault
  source : String
  deriving DecidableEq, Repr

/-- The failure, shown in a given document unless it already belongs to one. -/
def Failure.shownIn (f : Failure) (source : String) : Failure :=
  if f.source = "" then { f with source } else f

end CiteStyle
