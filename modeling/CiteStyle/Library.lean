import CiteStyle.FileTree
import CiteStyle.Style.Build

/-!
Styles and locales from text or from files.

A text whose first character that is no white space is a less-than sign is a document by itself.
Any other text is the path of one.

A file that cannot be read is a failure like any other, with two exceptions that nothing handles: a
path that no system can be asked for, and in a search a path that is too long.
-/

namespace CiteStyle

/-- What ends a computation on files early. -/
inductive Halt where
  | failure (f : Failure)
  | unhandled (e : FileError)
  deriving DecidableEq, Repr

/-- Whether a text is a document rather than the path of one. -/
def isInline (s : String) : Bool := (Text.trimStart s.toList).head? == some '<'

namespace FileTree

/-- The document in a file; `given` is how the file was asked for. -/
def fileDocument (t : FileTree) (given : String) (p : Path) : Except Halt Document :=
  match t.read p with
  | .ok bytes => .ok (.bytes bytes)
  | .error .nullInPath => .error (.unhandled .nullInPath)
  | .error e => .error (.failure ⟨.unreadable given (e.message p), ""⟩)

def pathDocument (t : FileTree) (p : Path) : Except Halt Document :=
  t.fileDocument p.toString p

/-- The document that a text is or leads to. -/
def document (t : FileTree) (source : String) : Except Halt Document :=
  if isInline source then .ok (.text source) else t.fileDocument source (.ofString source)

def locale (t : FileTree) (source : String) : Logged Halt Locale :=
  (Logged.ofExcept (t.document source)).bind fun d => d.locale.mapError .failure

def pathLocale (t : FileTree) (p : Path) : Logged Halt Locale :=
  (Logged.ofExcept (t.pathDocument p)).bind fun d => d.locale.mapError .failure

def style (t : FileTree) (source : String) (requested : Option String) (external : Option Locale) :
    Logged Halt Style :=
  (Logged.ofExcept (t.document source)).bind fun d =>
    (d.style requested external).mapError .failure

def pathStyle (t : FileTree) (p : Path) (requested : Option String) (external : Option Locale) :
    Logged Halt Style :=
  (Logged.ofExcept (t.pathDocument p)).bind fun d =>
    (d.style requested external).mapError .failure

end FileTree

/-- The names of locale files that suit a language: the tag itself, then the main region of its
language if that is another one. -/
def localeFileNames (lang : String) : List String :=
  let exact := "locales-" ++ Language.normalize lang ++ ".xml"
  let main := "locales-" ++ Language.extend (Language.primarySubtag lang) ++ ".xml"
  if main = exact then [exact] else [exact, main]

def FileTree.findFile (t : FileTree) : List Path → Except FileError (Option Path)
  | [] => .ok none
  | p :: rest =>
    match t.isFile p with
    | .error e => .error e
    | .ok true => .ok (some p)
    | .ok false => t.findFile rest

def findLocaleFile (t : FileTree) (lang : String) (directories : List Path) :
    Except FileError (Option Path) :=
  t.findFile (directories.flatMap fun d =>
    (localeFileNames lang).map fun name => d.join (.ofString name))

end CiteStyle
