import CiteStyle.CommandLine.Configuration
import CiteStyle.CommandLine.Summary
import CiteStyle.Dump
import CiteStyle.Library
import CiteStyle.Report

/-!
The command: reads a style, finds its locale, compiles it and reports on it.

The report goes to a file or to the output; a failure is reported among the errors and leaves no
report. The exit code is 1 if a document could not be read or is not well-formed, and 2 if it makes
no style or has a bad option. An error of a file that nothing handles ends the command without an
exit code of its own.
-/

namespace CiteStyle

/-- The same, with a failure shown in a given document unless it already belongs to one. -/
def Halt.shownIn (h : Halt) (source : String) : Halt :=
  match h with
  | failure f => .failure (f.shownIn source)
  | unhandled e => .unhandled e

namespace CommandLine

/-- The file of the locale to be merged: the one that is named, else one found for the language. A
search without result is told of. -/
def Settings.localePath (s : Settings) (t : FileTree) (language : String) :
    Logged Halt (Option Path) :=
  match s.localeFile with
  | some p => ⟨[], .ok (some p)⟩
  | none =>
    if s.localeDirectories.isEmpty then ⟨[], .ok none⟩
    else
      match findLocaleFile t language s.localeDirectories with
      | .error e => .fail (.unhandled e)
      | .ok (some p) => ⟨[], .ok (some p)⟩
      | .ok none => ⟨[.noLocaleFile language], .ok none⟩

/-- The locale in a file that may be missing. -/
def externalLocale (t : FileTree) : Option Path → Logged Halt (Option Locale)
  | none => ⟨[], .ok none⟩
  | some p => (t.pathLocale p).bind fun l => ⟨[], .ok (some l)⟩

def Settings.styleOf (s : Settings) (t : FileTree) (d : Document) (root : Element) :
    Logged Halt Style :=
  let language := requestedLanguage s.locale root
  (s.localePath t language).bind fun path =>
    (externalLocale t path).bind fun external =>
      (buildStyle root d.usesYearSuffix (some language) external).mapError
        fun m => .failure ⟨.misplaced m, ""⟩

/-- Compiles the style that the settings name. Every failure is shown in the style unless it belongs
to another document. -/
def Settings.compile (s : Settings) (t : FileTree) : Logged Halt Style :=
  (Logged.ofExcept (t.pathDocument s.input)).bind fun d =>
    ((Logged.ofExcept (d.parse.mapError .failure)).bind (s.styleOf t d)).mapError
      (·.shownIn d.source)

/-- The dump of the style's tree, if one is wanted and the style can be read. -/
def Settings.dump (s : Settings) (t : FileTree) : String :=
  if s.debug then
    match t.pathDocument s.input with
    | .error _ => ""
    | .ok d =>
      match d.parse with
      | .error _ => ""
      | .ok root => root.dump
  else ""

/-- What a command gives: besides what it prints, perhaps a text to be written to a file. -/
structure Outcome where
  exitCode : Nat
  output : String := ""
  errors : String
  log : List LogEvent
  written : Option (Path × String) := none

def exitCode : FaultKind → Nat
  | .input | .wellFormedness => 1
  | .placement | .option => 2

def Settings.shownLog (s : Settings) (log : List LogEvent) : List LogEvent :=
  if s.verbose then log else log.filter (·.level == .warning)

/-- The report on a style, or the failure of its making; a bad option belongs to no document. -/
def Settings.report (s : Settings) (t : FileTree) : Logged Halt String :=
  (s.compile t).bind fun style =>
    .ofExcept (style.draft.summary.mapError fun b => .failure ⟨.badOption b, ""⟩)

def Settings.run (s : Settings) (t : FileTree) : Except FileError Outcome :=
  let made := s.report t
  let log := s.shownLog made.log
  match made.result with
  | .error (.unhandled e) => .error e
  | .error (.failure f) =>
    .ok {
      exitCode := exitCode f.fault.kind
      errors := s.dump t ++ f.report s.input.toString ++ "\n"
      log }
  | .ok text =>
    match s.output with
    | none => .ok { exitCode := 0, output := text, errors := s.dump t, log }
    | some p => .ok { exitCode := 0, errors := s.dump t, log, written := some (p, text) }

def Outcome.files (o : Outcome) (t : FileTree) : Except FileError FileTree :=
  match o.written with
  | none => .ok t
  | some (p, text) => t.write p text

/-- Why a command line gives no outcome. -/
inductive Abort where
  | refused (r : Refusal)
  | configuration (e : ConfigurationError)
  | unhandled (e : FileError)
  | output (e : FileError)
  deriving DecidableEq, Repr

def Settings.finish (s : Settings) (t : FileTree) : Except Abort (Outcome × FileTree) :=
  match s.run t with
  | .error e => .error (.unhandled e)
  | .ok o =>
    match o.files t with
    | .error e => .error (.output e)
    | .ok after => .ok (o, after)

def run (t : FileTree) (argv : List String) : Except Abort (Outcome × FileTree) :=
  match Arguments.parse argv with
  | .error r => .error (.refused r)
  | .ok a =>
    match settings t a with
    | .error e => .error (.configuration e)
    | .ok s => s.finish t

/-- The files that may hold the locale for a style whose own file can be read. -/
def Settings.localeCandidates (s : Settings) (t : FileTree) : List Path :=
  match (t.pathDocument s.input).bind fun d => d.parse.mapError .failure with
  | .error _ => []
  | .ok root =>
    s.localeFile.toList ++ s.localeDirectories.flatMap fun d =>
      (localeFileNames (requestedLanguage s.locale root)).map fun name => d.join (.ofString name)

end CommandLine

end CiteStyle
