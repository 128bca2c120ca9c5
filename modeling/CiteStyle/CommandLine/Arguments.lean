import CiteStyle.Text.DecimalDigit

/-!
Command-line arguments.

Options and the name of the style may come in any order. A long option may be shortened as long as
it stays clear which one is meant, and takes its value from the next argument or after an equals
sign. A short option may have its value joined to it, and short options without value may be joined
to each other. What looks like an option is never a value. After two hyphens nothing is an option.
-/

namespace CiteStyle.CommandLine

open Text (digitValue?)

inductive Switch where
  | help | output | locale | localeFile | localesDirectory | config | debug | verbose
  deriving DecidableEq, Repr

def switchNames : List (String × Switch) := [
  ("-h", .help), ("--help", .help), ("-o", .output), ("--output", .output), ("-l", .locale),
  ("--locale", .locale), ("--locale-file", .localeFile), ("--locales-dir", .localesDirectory),
  ("--config", .config), ("--debug", .debug), ("-v", .verbose), ("--verbose", .verbose)]

def Switch.takesValue : Switch → Bool
  | help | debug | verbose => false
  | _ => true

/-- What an argument is by its looks: the name of an option with a value joined to it or not, an
unknown option, the mark that ends the options, or a plain text. -/
inductive Word where
  | switch (s : Switch) (long : Bool) (joined : Option String)
  | unknown
  | endOfSwitches
  | plain (text : String)
  deriving DecidableEq, Repr

inductive Refusal where
  | helpWanted | misuse
  deriving DecidableEq, Repr

/-- A negative number, which is no option. -/
def isNegativeNumber (s : List Char) : Bool :=
  let isDigit (c : Char) : Bool := (digitValue? c).isSome
  match s with
  | '-' :: r =>
    let rest := r.dropWhile isDigit
    match rest with
    | [] => !r.isEmpty
    | '.' :: t => !t.isEmpty && t.all isDigit
    | _ => false
  | _ => false

/-- The options that a shortened long name may mean. -/
def longMatches (name : List Char) : List Switch :=
  (switchNames.filter fun n => name.isPrefixOf n.1.toList).map (·.2)

/-- What an argument that begins with two hyphens is: the name is what stands before an equals
sign. -/
def longWord (s : List Char) : Except Refusal Word :=
  let name := s.takeWhile (· != '=')
  let joined := match s.dropWhile (· != '=') with
    | _ :: value => some (String.ofList value)
    | [] => none
  match switchNames.lookup (String.ofList name) with
  | some found => .ok (.switch found true joined)
  | none =>
    match longMatches name with
    | [found] => .ok (.switch found true joined)
    | [] => .ok (if s.contains ' ' then .plain (String.ofList s) else .unknown)
    | _ => .error .misuse

/-- A value that is joined to a short option; an equals sign may come before it. -/
def joinedValue : List Char → String
  | '=' :: value => String.ofList value
  | value => String.ofList value

/-- What an argument that begins with a single hyphen is. -/
def shortWord (s : List Char) : Word :=
  let name := s.take 2
  match switchNames.lookup (String.ofList name) with
  | some found =>
    match s.drop 2 with
    | [] => .switch found false none
    | joined =>
      .switch found false (some (if found.takesValue then joinedValue joined else .ofList joined))
  | none =>
    if isNegativeNumber s || s.contains ' ' then .plain (String.ofList s) else .unknown

/-- What an argument before the end of the options is. -/
def word (argument : String) : Except Refusal Word :=
  match argument.toList with
  | '-' :: '-' :: [] => .ok .endOfSwitches
  | '-' :: '-' :: r => longWord ('-' :: '-' :: r)
  | '-' :: c :: r => .ok (shortWord ('-' :: c :: r))
  | _ => .ok (.plain argument)

/-- What the arguments are; after the end of the options all are plain. -/
def words : List String → Except Refusal (List Word)
  | [] => .ok []
  | argument :: rest =>
    match word argument with
    | .error e => .error e
    | .ok .endOfSwitches => .ok (.endOfSwitches :: rest.map .plain)
    | .ok w =>
      match words rest with
      | .error e => .error e
      | .ok more => .ok (w :: more)

structure Arguments where
  input : String := ""
  output : Option String := none
  locale : Option String := none
  localeFile : Option String := none
  localesDirectories : List String := []
  config : Option String := none
  debug : Bool := false
  verbose : Bool := false
  deriving DecidableEq, Repr

/-- Sets an option. Directories are collected; of other values the last counts. -/
def Arguments.set (a : Arguments) (s : Switch) (value : String) : Except Refusal Arguments :=
  match s with
  | .help => .error .helpWanted
  | .output => .ok { a with output := some value }
  | .locale => .ok { a with locale := some value }
  | .localeFile => .ok { a with localeFile := some value }
  | .localesDirectory => .ok { a with localesDirectories := a.localesDirectories ++ [value] }
  | .config => .ok { a with config := some value }
  | .debug => .ok { a with debug := true }
  | .verbose => .ok { a with verbose := true }

/-- The options of one argument with the values that are joined to them, and whether something was
left over. -/
structure SwitchGroup where
  switches : List (Switch × Option String)
  excess : Bool := false

/-- The options in an argument of joined short ones: those without value, and the one that ends
them, with the value joined to it if there is one. From an unknown one on all is left over, but
neither a hyphen nor a value can follow an option without value. -/
def joinedSwitches (first : Switch) : List Char → Except Refusal SwitchGroup
  | [] => .error .misuse
  | c :: rest =>
    if c == '-' || c == '=' then .error .misuse
    else
      match switchNames.lookup (String.ofList ['-', c]) with
      | none => .ok { switches := [(first, none)], excess := true }
      | some next =>
        if rest.isEmpty then .ok { switches := [(first, none), (next, none)] }
        else if next.takesValue then
          .ok { switches := [(first, none), (next, some (joinedValue rest))] }
        else
          match joinedSwitches next rest with
          | .error e => .error e
          | .ok g => .ok { g with switches := (first, none) :: g.switches }

/-- The options in one argument, with the values that are joined to them. -/
def Word.switches (s : Switch) (long : Bool) (joined : Option String) :
    Except Refusal SwitchGroup :=
  match joined with
  | none => .ok { switches := [(s, none)] }
  | some value =>
    if s.takesValue then .ok { switches := [(s, some value)] }
    else if long then .error .misuse
    else joinedSwitches s value.toList

def Arguments.setAll (a : Arguments) : List (Switch × String) → Except Refusal Arguments
  | [] => .ok a
  | (s, value) :: rest =>
    match a.set s value with
    | .error e => .error e
    | .ok a' => a'.setAll rest

/-- The options of one argument with their values. Only the last of them may need the value that
follows. -/
def completeSwitches (switches : List (Switch × Option String)) (next : Option String) :
    Option (List (Switch × String)) :=
  switches.mapM fun (s, value) =>
    match value with
    | some v => some (s, v)
    | none => if s.takesValue then next.map fun v => (s, v) else some (s, "")

/-- How far the arguments have been taken in: what they set, the name of the style, whether it came
last, and whether something was left over. -/
structure Intake where
  arguments : Arguments := {}
  input : Option String := none
  justNamed : Bool := false
  excess : Bool := false

/-- Takes in a plain text: the first is the name of the style. -/
def Intake.name (i : Intake) (text : String) : Intake :=
  match i.input with
  | none => { i with input := some text, justNamed := true }
  | some _ => { i with excess := true, justNamed := false }

def Intake.set (i : Intake) (values : Option (List (Switch × String))) : Except Refusal Intake :=
  match values with
  | none => .error .misuse
  | some vs => (i.arguments.setAll vs).map fun arguments => { i with arguments, justNamed := false }

/-- The text that follows an option, if one is needed and there, and what comes after it. -/
def nextText (needed : Bool) : List Word → Option String × List Word
  | .plain text :: rest => if needed then (some text, rest) else (none, .plain text :: rest)
  | rest => (none, rest)

theorem length_nextText_le (needed : Bool) (ws : List Word) :
    (nextText needed ws).2.length ≤ ws.length := by
  unfold nextText
  split
  · split <;> simp
  · simp

def Intake.take (i : Intake) (ws : List Word) : Except Refusal Intake :=
  match ws with
  | [] => .ok i
  | .plain text :: rest => (i.name text).take rest
  | .unknown :: rest => { i with excess := true, justNamed := false }.take rest
  | .endOfSwitches :: rest =>
    { i with excess := i.excess || (i.input.isSome && !i.justNamed) }.take rest
  | .switch s long joined :: rest =>
    match Word.switches s long joined with
    | .error e => .error e
    | .ok g =>
      let needsNext := g.switches.any fun (s, value) => s.takesValue && value.isNone
      match i.set (completeSwitches g.switches (nextText needsNext rest).1) with
      | .error e => .error e
      | .ok i' => { i' with excess := i'.excess || g.excess }.take (nextText needsNext rest).2
termination_by ws.length
decreasing_by
  · exact Nat.lt_succ_self _
  · exact Nat.lt_succ_self _
  · exact Nat.lt_succ_self _
  · exact Nat.lt_succ_of_le (length_nextText_le _ rest)

/-- The arguments of a command. The name of a style is needed, and nothing may be left over. -/
def Arguments.parse (argv : List String) : Except Refusal Arguments :=
  match words argv with
  | .error e => .error e
  | .ok ws =>
    match Intake.take {} ws with
    | .error e => .error e
    | .ok i =>
      match i.input with
      | none => .error .misuse
      | some input => if i.excess then .error .misuse else .ok { i.arguments with input }

end CiteStyle.CommandLine
