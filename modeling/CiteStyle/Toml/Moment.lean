/-! Dates and times in configuration files, and how they are shown. -/

namespace CiteStyle.Toml

/-- A number with at least `width` digits. -/
def padded (width n : Nat) : String :=
  let digits := Nat.toDigits 10 n
  String.ofList (List.replicate (width - digits.length) '0' ++ digits)

structure Date where
  year : Nat
  month : Nat
  day : Nat
  deriving DecidableEq, Repr

structure Clock where
  hour : Nat
  minute : Nat
  second : Nat
  microsecond : Nat
  deriving DecidableEq, Repr

/-- The distance from universal time in minutes. -/
structure Offset where
  minutes : Int
  deriving DecidableEq, Repr

inductive Moment where
  | date (d : Date)
  | clock (c : Clock)
  | full (d : Date) (c : Clock) (zone : Option Offset)
  deriving DecidableEq, Repr

def Date.text (d : Date) : String :=
  padded 4 d.year ++ "-" ++ padded 2 d.month ++ "-" ++ padded 2 d.day

/-- A time as text; the fraction is left out if it is zero. -/
def Clock.text (c : Clock) : String :=
  padded 2 c.hour ++ ":" ++ padded 2 c.minute ++ ":" ++ padded 2 c.second ++
    if c.microsecond = 0 then "" else "." ++ padded 6 c.microsecond

/-- A distance as hours and minutes after its sign. -/
def Offset.text (o : Offset) : String :=
  let n := o.minutes.natAbs
  (if o.minutes < 0 then "-" else "+") ++ padded 2 (n / 60) ++ ":" ++ padded 2 (n % 60)

def Moment.text : Moment → String
  | date d => d.text
  | clock c => c.text
  | full d c zone => d.text ++ " " ++ c.text ++ (zone.map Offset.text).getD ""

def Date.parts (d : Date) : List Nat := [d.year, d.month, d.day]

/-- The parts of a time: zeros at its end are left out, but never the minutes. -/
def Clock.parts (c : Clock) : List Nat :=
  if c.microsecond = 0 then
    if c.second = 0 then [c.hour, c.minute] else [c.hour, c.minute, c.second]
  else [c.hour, c.minute, c.second, c.microsecond]

/-- The parts of a moment after the name of its kind. -/
def constructed (kind : String) (parts : List String) : String :=
  "datetime." ++ kind ++ "(" ++ ", ".intercalate parts ++ ")"

/-- A distance inside another value: whole days are split off downwards. -/
def Offset.nested (o : Offset) : String :=
  let days := o.minutes.fdiv 1440
  let seconds := o.minutes.fmod 1440 * 60
  if o.minutes = 0 then "datetime.timezone.utc"
  else
    constructed "timezone" [constructed "timedelta"
      ((if days = 0 then [] else [s!"days={days}"]) ++
        if seconds = 0 then [] else [s!"seconds={seconds}"])]

def Moment.nested : Moment → String
  | date d => constructed "date" (d.parts.map toString)
  | clock c => constructed "time" (c.parts.map toString)
  | full d c zone =>
    constructed "datetime" ((d.parts ++ c.parts).map toString ++
      (zone.map fun o => "tzinfo=" ++ o.nested).toList)

end CiteStyle.Toml
