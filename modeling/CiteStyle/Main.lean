import CiteStyle.CommandLine.Command

/-!
The command itself: reads the files a command may need, runs it, and prints what it gives.
-/

namespace CiteStyle

open CommandLine

def loadEntry (p : Path) : IO (Except FileError FileEntry) := do
  try
    return .ok (.file (← IO.FS.readBinFile p.toString).toList)
  catch
    | .noFileOrDirectory .. => return .error .noSuchFile
    | .invalidArgument .. => return .error .nameTooLong
    | .inappropriateType _ code _ =>
      return if code == 20 then .error .notDirectory else .ok .directory
    | _ => return .ok .directory

/-- A tree in which it is known what some paths lead to. -/
def load (t : FileTree) (paths : List Path) : IO FileTree := do
  let found ← (paths.filter (!·.hasNull)).mapM fun p => do return (p, ← loadEntry p)
  return { t with known := t.known ++ found }

def logLine (event : LogEvent) : String :=
  let level := match event.level with
    | .debug => "DEBUG"
    | .warning => "WARNING"
  "[" ++ level ++ "] " ++ event.logger ++ ": " ++ event.message

def execute (s : Settings) (t : FileTree) : IO UInt32 := do
  let styles ← load t [s.input]
  let files ← load styles (s.localeCandidates styles)
  match s.run files with
  | .error e =>
    IO.eprintln ("error: " ++ e.reason)
    return 1
  | .ok outcome =>
    for event in outcome.log do
      IO.eprintln (logLine event)
    IO.eprint outcome.errors
    IO.print outcome.output
    if let some (p, text) := outcome.written then
      IO.FS.writeFile p.toString text
    return outcome.exitCode.toUInt32

def usage : String :=
  "usage: cslc [-h] [-o OUTPUT] [-l LANG] [--locale-file FILE] [--locales-dir DIR]\n" ++
  "            [--config FILE] [--debug] [-v] input"

end CiteStyle

def main (argv : List String) : IO UInt32 := do
  match CiteStyle.CommandLine.Arguments.parse argv with
  | .error .helpWanted =>
    IO.println CiteStyle.usage
    return 0
  | .error .misuse =>
    IO.eprintln CiteStyle.usage
    return 2
  | .ok arguments =>
    let files ← CiteStyle.load {} [arguments.configurationPath]
    match CiteStyle.CommandLine.settings files arguments with
    | .error (.inaccessible e) =>
      IO.eprintln ("error: " ++ e.reason)
      return 1
    | .error _ =>
      IO.eprintln "error: the configuration file cannot be used"
      return 1
    | .ok settings => CiteStyle.execute settings files
