import CiteStyle.Path
import CiteStyle.Table
import CiteStyle.Text.Quoted
import CiteStyle.Text.Utf8

/-!
A tree of files and directories, and what reading and writing in it give.

Paths are followed name by name from the directory of the tree. Two dots lead to the directory
above; nothing is known of what lies outside the tree but that it is a directory.

The question whether there is a file at a path has an answer wherever nothing is found there. It has
none where a name or the path itself is too long.
-/

namespace CiteStyle

inductive FileEntry where
  | file (bytes : List UInt8)
  | directory
  deriving DecidableEq, Repr

/-- Why a file cannot be used. The last reason lies in the path alone: no system is asked for it. -/
inductive FileError where
  | noSuchFile | notDirectory | isDirectory | nameTooLong
  | nullInPath
  deriving DecidableEq, Repr

def FileError.reason : FileError → String
  | noSuchFile => "[Errno 2] No such file or directory"
  | notDirectory => "[Errno 20] Not a directory"
  | isDirectory => "[Errno 21] Is a directory"
  | nameTooLong => "[Errno 36] File name too long"
  | nullInPath => "embedded null byte"

def FileError.message (e : FileError) (p : Path) : String :=
  match e with
  | nullInPath => e.reason
  | _ => e.reason ++ ": " ++ Text.Quoted.ofString p.toString

/-- Files and directories under the names that lead to them. Directories above an entry are there
without an entry of their own. Of some paths it may be known what they lead to, wherever that is. -/
structure FileTree where
  entries : List (List String × FileEntry) := []
  known : List (Path × Except FileError FileEntry) := []
  deriving Repr

/-- A place in a tree, or any place outside it. -/
inductive FilePlace where
  | inside (names : List String)
  | outside
  deriving DecidableEq, Repr

namespace FileTree

def at? (t : FileTree) (names : List String) : Option FileEntry :=
  match t.entries.lookup names with
  | some entry => some entry
  | none =>
    if names.isEmpty || t.entries.any fun e => names.isPrefixOf e.1 then some .directory else none

def isDirectory (t : FileTree) : FilePlace → Bool
  | .outside => true
  | .inside names => t.at? names == some .directory

-- The limits of common systems, counted in bytes and not in characters.
def maxName : Nat := 255

def maxPath : Nat := 4095

def exists? (t : FileTree) : FilePlace → Bool
  | .outside => true
  | .inside names => (t.at? names).isSome

def above : FilePlace → FilePlace
  | .outside => .outside
  | .inside names => if names.isEmpty then .outside else .inside names.dropLast

def enter (name : String) (directory : FilePlace) : Except FileError FilePlace :=
  if name = ".." then .ok (above directory)
  else if name.utf8ByteSize > maxName then .error .nameTooLong
  else
    match directory with
    | .outside => .error .noSuchFile
    | .inside names => .ok (.inside (names ++ [name]))

/-- Follows names from a place; the last of them need not lead to anything. -/
def follow (t : FileTree) (start : FilePlace) : List String → Except FileError FilePlace
  | [] => .ok start
  | name :: rest =>
    if !t.exists? start then .error .noSuchFile
    else if !t.isDirectory start then .error .notDirectory
    else
      match enter name start with
      | .error e => .error e
      | .ok next => t.follow next rest

def resolve (t : FileTree) (p : Path) : Except FileError FilePlace :=
  if p.toString.utf8ByteSize > maxPath then .error .nameTooLong
  else t.follow (if p.isAbsolute then .outside else .inside []) p.names

def lookUp (t : FileTree) (p : Path) : Except FileError FileEntry :=
  match t.known.lookup p with
  | some found => found
  | none =>
    match t.resolve p with
    | .error e => .error e
    | .ok .outside => .ok .directory
    | .ok (.inside names) =>
      match t.at? names with
      | none => .error .noSuchFile
      | some entry => .ok entry

def read (t : FileTree) (p : Path) : Except FileError (List UInt8) :=
  if p.hasNull then .error .nullInPath
  else
    match t.lookUp p with
    | .error e => .error e
    | .ok .directory => .error .isDirectory
    | .ok (.file bytes) => .ok bytes

/-- Whether a path leads to a file. Of a path that is too long this cannot be said. -/
def isFile (t : FileTree) (p : Path) : Except FileError Bool :=
  match t.read p with
  | .ok _ => .ok true
  | .error .nameTooLong => .error .nameTooLong
  | .error _ => .ok false

def write (t : FileTree) (p : Path) (text : String) : Except FileError FileTree :=
  if p.hasNull then .error .nullInPath
  else
    match t.resolve p with
    | .error e => .error e
    | .ok .outside => .error .isDirectory
    | .ok (.inside names) =>
      if t.at? names = some .directory then .error .isDirectory
      else .ok { t with entries := Table.put names (.file text.toUTF8.toList) t.entries }

end FileTree

end CiteStyle
