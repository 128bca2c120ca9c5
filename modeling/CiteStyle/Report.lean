import CiteStyle.Fault
import CiteStyle.Text.Line

/-!
Showing failures: a report with the offending line for people, a range for editors.

A report quotes the line under a gutter with its number and underlines a place in it. Where only
the line is known, all of it but the white space around it is underlined.
-/

namespace CiteStyle

open Text (Line lineAt indent trimStart trimEnd)

/-- A place in a text, counted from one. The column may be unknown. -/
structure Place where
  line : Int
  column : Option Int := none
  deriving DecidableEq, Repr

/-- So many copies of a character; none for a negative number. -/
def repeated (c : Char) (n : Int) : String := String.ofList (List.replicate n.toNat c)

/-- The column at which a place is underlined, and the length of the underline. -/
def Place.underline (p : Place) (quoted : List Char) : Int × Int :=
  match p.column with
  | some column => (column, max 1 (min 2 (quoted.length - column + 1)))
  | none => (indent quoted + 1, max 1 (trimEnd (trimStart quoted)).length)

def Place.report (p : Place) (message : String) (source : String) (filename : String) : String :=
  let quoted := (lineAt source.toList p.line).quoted
  let (column, length) := p.underline quoted
  let number := toString p.line
  let gutter := repeated ' ' (number.length + 1)
  "error: " ++ message ++ "\n" ++
    gutter ++ "--> " ++ filename ++ ":" ++ number ++ ":" ++ toString column ++ "\n" ++
    gutter ++ "|\n" ++
    number ++ " | " ++ String.ofList quoted ++ "\n" ++
    gutter ++ "| " ++ repeated ' ' (column - 1) ++ repeated '^' length

/-- The report of a message whose place may be unknown. -/
def report (message : String) (place : Option Place) (source : String) (filename : String) :
    String :=
  match place with
  | some p => p.report message source filename
  | none => "error: " ++ message ++ "\n  --> " ++ filename

def Failure.report (f : Failure) (filename : String) : String :=
  CiteStyle.report f.fault.message (f.fault.line?.map fun line => ⟨line, none⟩) f.source filename

inductive Severity where
  | error | warning
  deriving DecidableEq, Repr

/-- A position for editors, counted from zero. -/
structure EditorPosition where
  line : Int
  character : Int
  deriving DecidableEq, Repr

structure EditorRange where
  start : EditorPosition
  stop : EditorPosition
  deriving DecidableEq, Repr

structure Diagnostic where
  range : EditorRange
  message : String
  severity : Severity
  deriving DecidableEq, Repr

/-- The range of a place in a text: one character, or the line without its indentation and the white
space at its end. -/
def Place.range (p : Place) (source : String) : EditorRange :=
  let line := p.line - 1
  match p.column with
  | some column => ⟨⟨line, column - 1⟩, ⟨line, column⟩⟩
  | none =>
    let body := (lineAt source.toList p.line).body
    ⟨⟨line, indent body⟩, ⟨line, (trimEnd body).length⟩⟩

def diagnose (message : String) (place : Option Place) (source : String) (severity : Severity) :
    Diagnostic where
  range := (place.map (·.range source)).getD ⟨⟨0, 0⟩, ⟨0, 0⟩⟩
  message := message
  severity := severity

def Fault.diagnostic (f : Fault) (source : String) (severity : Severity) : Diagnostic :=
  diagnose f.message (f.line?.map fun line => ⟨line, none⟩) source severity

end CiteStyle
