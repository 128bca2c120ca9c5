import CiteStyle.CommandLine.Arguments
import CiteStyle.FileTree
import CiteStyle.Text.Utf8
import CiteStyle.Toml.Document

/-!
What to compile and how, from the arguments and a configuration file.

The file is the one named by the arguments, else the one beside the style. It may be missing, but a
path too long for any file is an error. Search directories of the file may be values of any kind, as
long as these have a text.
Arguments take precedence, and search directories of the file come before those of the arguments.
Paths in the file are seen from the directory of the style.
-/

namespace CiteStyle.CommandLine

structure Settings where
  input : Path
  output : Option Path
  locale : Option String
  localeFile : Option Path
  localeDirectories : List Path
  debug : Bool
  verbose : Bool
  deriving DecidableEq, Repr

/-- Why there are no settings: the configuration file cannot be asked for, its bytes are no text, the
text is not well-formed, or a search directory is given by a number that has no text. -/
inductive ConfigurationError where
  | inaccessible (e : FileError)
  | undecodable
  | malformed
  | numberTooLong
  deriving DecidableEq, Repr

def configurationName : Path := ⟨"", ["cslc.toml"]⟩

def nonempty? (s : Option String) : Option String := s.filter (· != "")

def Arguments.configurationPath (a : Arguments) : Path :=
  ((nonempty? a.config).map Path.ofString).getD
    ((Path.ofString a.input).parent.join configurationName)

/-- The contents of a configuration file, empty if it is missing. -/
def configuration (t : FileTree) (p : Path) : Except ConfigurationError Toml :=
  match t.isFile p with
  | .error e => .error (.inaccessible e)
  | .ok false => .ok (.table [])
  | .ok true =>
    match t.read p with
    | .error e => .error (.inaccessible e)
    | .ok bytes =>
      match Text.Utf8.strict? bytes with
      | none => .error .undecodable
      | some text => (Toml.parse? text).elim (.error .malformed) .ok

def localeField? (contents : Toml) (key : String) : Option Toml :=
  (contents.get? "locale").bind (Toml.get? key)

def listedDirectories (contents : Toml) : List Toml :=
  ((localeField? contents "dirs").bind Toml.array?).getD []

def Settings.combine (a : Arguments) (contents : Toml) : Settings :=
  let input := Path.ofString a.input
  let directory := input.parent
  { input
    output := (nonempty? a.output).map .ofString
    locale := (nonempty? a.locale).or ((localeField? contents "lang").bind Toml.string?)
    localeFile := ((nonempty? a.localeFile).map .ofString).or
      (((localeField? contents "file").bind Toml.string?).map fun f => directory.join (.ofString f))
    localeDirectories :=
      (listedDirectories contents).map (fun d => directory.join (.ofString d.text)) ++
        a.localesDirectories.map .ofString
    debug := a.debug
    verbose := a.verbose }

def settings (t : FileTree) (a : Arguments) : Except ConfigurationError Settings :=
  match configuration t a.configurationPath with
  | .error e => .error e
  | .ok contents =>
    if (listedDirectories contents).all Toml.hasText then .ok (.combine a contents)
    else .error .numberTooLong

end CiteStyle.CommandLine
