import CiteStyle.Report
import CiteStyle.Style.Build

/-!
Checking styles while they are edited.

A text that cannot be read is an error. A text that can be read but makes no style is a warning.
Whenever an editor sends the text of a document, what is found in it is published.
-/

namespace CiteStyle

/-- The diagnostics of a text in an editor, at most one. -/
def diagnostics (text : String) : List Diagnostic :=
  let document : Document := .text text
  match document.parse with
  | .error f => [f.fault.diagnostic text .error]
  | .ok root =>
    match (buildStyle root document.usesYearSuffix none none).result with
    | .error m => [(Fault.misplaced m).diagnostic text .warning]
    | .ok _ => []

structure Publication where
  uri : String
  diagnostics : List Diagnostic
  deriving DecidableEq, Repr

/-- What an editor tells of a document. Either way it sends the whole text. -/
inductive DocumentEvent where
  | opened (uri text : String)
  | changed (uri text : String)
  deriving DecidableEq, Repr

namespace DocumentEvent

def uri : DocumentEvent → String
  | opened uri _ => uri
  | changed uri _ => uri

def text : DocumentEvent → String
  | opened _ text => text
  | changed _ text => text

end DocumentEvent

/-- The texts of the documents in an editor. -/
structure Workspace where
  texts : Table String := {}

namespace Workspace

def receive (w : Workspace) (e : DocumentEvent) : Workspace := ⟨w.texts.insert e.uri e.text⟩

/-- What is published for a document, if its text is known. -/
def validate (w : Workspace) (uri : String) : List Publication :=
  (w.texts.get? uri).toList.map fun text => ⟨uri, diagnostics text⟩

def handle (w : Workspace) (e : DocumentEvent) : Workspace × List Publication :=
  let received := w.receive e
  (received, received.validate e.uri)

def handleAll (w : Workspace) : List DocumentEvent → List (List Publication)
  | [] => []
  | e :: rest => (w.handle e).2 :: (w.handle e).1.handleAll rest

theorem handle_publishes (w : Workspace) (e : DocumentEvent) :
    (w.handle e).2 = [⟨e.uri, diagnostics e.text⟩] := by
  simp [handle, receive, validate, Table.get?_insert]

end Workspace

end CiteStyle
