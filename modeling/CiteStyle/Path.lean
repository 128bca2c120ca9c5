/-!
Paths of files.

A path is a list of names, perhaps from a root. Names that are empty or a single dot are left out;
two dots are kept, since where they lead depends on the files.
-/

namespace CiteStyle

/-- A path: the slashes of its root, none for a relative one, and its names. -/
structure Path where
  root : String := ""
  names : List String
  deriving DecidableEq, Repr

namespace Path

def split : List Char → List (List Char)
  | [] => [[]]
  | '/' :: rest => [] :: split rest
  | c :: rest =>
    match split rest with
    | [] => [[c]]
    | first :: more => (c :: first) :: more

/-- The slashes of a root: two count only if there is no third. -/
def rootOf (s : List Char) : String :=
  match (s.takeWhile (· == '/')).length with
  | 0 => ""
  | 2 => "//"
  | _ => "/"

def ofString (s : String) : Path where
  root := rootOf s.toList
  names := ((split s.toList).filter fun n => n != [] && n != ['.']).map String.ofList

def isAbsolute (p : Path) : Bool := p.root != ""

/-- A path as text; the path without names is a dot. -/
def toString (p : Path) : String :=
  if p.root = "" && p.names = [] then "." else p.root ++ "/".intercalate p.names

instance : ToString Path := ⟨toString⟩

def hasNull (p : Path) : Bool :=
  p.root.toList.contains '\x00' || p.names.any (·.toList.contains '\x00')

def join (p q : Path) : Path := if q.isAbsolute then q else { p with names := p.names ++ q.names }

def parent (p : Path) : Path := { p with names := p.names.dropLast }

end Path

end CiteStyle
