import CiteStyle.Table
import CiteStyle.Toml.Lexical

/-!
Configuration files as a whole: values, tables and the rules on defining things twice.

A table may be opened once. Tables that keys with points create inside another one cannot be opened
later, inline tables and arrays cannot be added to, and a key has one value.
-/

namespace CiteStyle.Toml

abbrev Entries := List (String × Toml)

/-- Changes the table at a path and creates the tables on the way. The last table of an array of
tables is passed through if `throughArrays` holds. -/
def changeAt (throughArrays : Bool) (change : Entries → Option Entries) :
    List String → Entries → Option Entries
  | [], entries => change entries
  | k :: path, entries =>
    match entries.lookup k with
    | none => (changeAt throughArrays change path []).map fun inner => Table.put k (.table inner) entries
    | some (.table inner) =>
      (changeAt throughArrays change path inner).map fun inner' => Table.put k (.table inner') entries
    | some (.array items) =>
      match throughArrays, items.getLast? with
      | true, some (.table inner) =>
        (changeAt throughArrays change path inner).map fun inner' =>
          Table.put k (.array (items.dropLast ++ [.table inner'])) entries
      | _, _ => none
    | some _ => none

/-- Gives a key its value, which it may not have yet. -/
def define (k : String) (v : Toml) (entries : Entries) : Option Entries :=
  if (entries.lookup k).isSome then none else some (Table.put k v entries)

def appendTable (k : String) (entries : Entries) : Option Entries :=
  match entries.lookup k with
  | none => some (Table.put k (.array [.table []]) entries)
  | some (.array items) => some (Table.put k (.array (items ++ [.table []])) entries)
  | some _ => none

/-- A restriction on the table at a path: it was opened, or it is closed with all inside it. -/
inductive Mark where
  | opened (path : List String)
  | closed (path : List String)
  deriving DecidableEq, Repr

def isOpened (marks : List Mark) (path : List String) : Bool := marks.contains (.opened path)

/-- Whether the table at a path is closed, or one around it is. -/
def isClosed (marks : List Mark) (path : List String) : Bool :=
  marks.any fun
    | .closed p => !path.isEmpty && p.isPrefixOf path
    | .opened _ => false

/-- The marks without those at a path and below it. -/
def unmark (path : List String) (marks : List Mark) : List Mark :=
  marks.filter fun
    | .opened p => !path.isPrefixOf p
    | .closed p => !path.isPrefixOf p

/-- Whether a value is closed once it has been given. -/
def isContainer : Toml → Bool
  | .array _ => true
  | .table _ => true
  | _ => false

mutual

/-- A value; values may nest `depth` deep. -/
def value (depth : Nat) (s : List Char) : Option (Toml × List Char) :=
  match depth with
  | 0 => none
  | depth + 1 =>
    match s with
    | [] => none
    | '[' :: r => do
      let t ← skipArraySpace (r.length + 1) r
      match t with
      | ']' :: u => return (.array [], u)
      | _ =>
        let (items, u) ← arrayItems depth t
        return (.array items, u)
    | '\x7b' :: r =>
      match skipInline r with
      | '\x7d' :: u => some (.table [], u)
      | t => (inlineEntries depth [] [] t).map fun (entries, u) => (.table entries, u)
    | c :: _ =>
      if c == '"' || c == '\x27' then
        (quoted? s).map fun (text, t) => (.string (String.ofList text), t)
      else
        match after? "true".toList s with
        | some t => some (.boolean true, t)
        | none =>
          match after? "false".toList s with
          | some t => some (.boolean false, t)
          | none =>
            match date? s with
            | some result => result
            | none =>
              match time? s with
              | some (clock, t) => some (.moment (.clock clock), t)
              | none =>
                match basedNumber? s with
                | some result => some result
                | none => (decimalNumber? s).or (namedNumber? s)

def arrayItems (depth : Nat) (s : List Char) : Option (List Toml × List Char) :=
  match depth with
  | 0 => none
  | depth + 1 => do
    let (item, r) ← value depth s
    let t ← skipArraySpace (r.length + 1) r
    match t with
    | ']' :: u => return ([item], u)
    | ',' :: u =>
      let v ← skipArraySpace (u.length + 1) u
      match v with
      | ']' :: w => return ([item], w)
      | _ =>
        let (more, w) ← arrayItems depth v
        return (item :: more, w)
    | _ => none

/-- The entries of an inline table that is not empty, added to those before, and its end. -/
def inlineEntries (depth : Nat) (before : Entries) (marks : List Mark) (s : List Char) :
    Option (Entries × List Char) :=
  match depth with
  | 0 => none
  | depth + 1 => do
    let (path, r) ← key (s.length + 1) s
    let r ← after? ['='] r
    let (item, t) ← value depth (skipInline r)
    if isClosed marks path then none
    else
      let entries ← changeAt false (define (path.getLast?.getD "") item) path.dropLast before
      match skipInline t with
      | '\x7d' :: u => return (entries, u)
      | ',' :: u =>
        let marks' := if isContainer item then .closed path :: marks else marks
        inlineEntries depth entries marks' (skipInline u)
      | _ => none

end

/-- What has been read of a file: its entries, the marks on them, marks that take effect at the next
heading, and the path of the current table. -/
structure Progress where
  entries : Entries := []
  marks : List Mark := []
  pending : List Mark := []
  heading : List String := []

/-- The paths of the tables between a heading and the last part of a key. -/
def pathsBetween (heading path : List String) : List (List String) :=
  (List.range (path.length - 1)).map fun i => heading ++ path.take (i + 1)

def Progress.keyValue (p : Progress) (s : List Char) : Option (Progress × List Char) := do
  let (path, r) ← key (s.length + 1) s
  let r ← after? ['='] r
  let (item, t) ← value (2 * s.length + 2) (skipInline r)
  let between := pathsBetween p.heading path
  let parent := p.heading ++ path.dropLast
  if between.any (isOpened p.marks) || isClosed p.marks parent then none
  else
    let entries ← changeAt true (define (path.getLast?.getD "") item) parent p.entries
    let marks := if isContainer item then .closed (p.heading ++ path) :: p.marks else p.marks
    return ({ p with entries, marks, pending := between.map .opened ++ p.pending }, t)

def Progress.tableHeading (p : Progress) (s : List Char) : Option (Progress × List Char) := do
  let marks := p.pending ++ p.marks
  let (path, r) ← key (s.length + 1) (skipInline s)
  if isOpened marks path || isClosed marks path then none
  else
    let entries ← changeAt true some path p.entries
    let t ← after? [']'] r
    return (⟨entries, .opened path :: marks, [], path⟩, t)

def Progress.arrayHeading (p : Progress) (s : List Char) : Option (Progress × List Char) := do
  let marks := p.pending ++ p.marks
  let (path, r) ← key (s.length + 1) (skipInline s)
  if isClosed marks path then none
  else
    let entries ← changeAt true (appendTable (path.getLast?.getD "")) path.dropLast p.entries
    let t ← after? [']', ']'] r
    return (⟨entries, .opened path :: unmark path marks, [], path⟩, t)

def Progress.statement (p : Progress) (s : List Char) : Option (Progress × List Char) :=
  match s with
  | [] => some (p, [])
  | '\n' :: _ => some (p, s)
  | '#' :: _ => some (p, s)
  | '[' :: '[' :: r => p.arrayHeading r
  | '[' :: r => p.tableHeading r
  | _ => p.keyValue s

def readLines : Nat → Progress → List Char → Option Entries
  | 0, p, _ => some p.entries
  | count + 1, p, s => do
    let (p', r) ← p.statement (skipInline s)
    match ← skipComment (skipInline r) with
    | [] => return p'.entries
    | '\n' :: t => readLines count p' t
    | _ => none

/-- A line end written as carriage return and line feed is a line feed. -/
def unifyLineEnds : List Char → List Char
  | [] => []
  | '\r' :: '\n' :: rest => '\n' :: unifyLineEnds rest
  | c :: rest => c :: unifyLineEnds rest

def parse? (text : List Char) : Option Toml := do
  let s := unifyLineEnds text
  let entries ← readLines (s.length + 1) {} s
  return .table entries

end CiteStyle.Toml
