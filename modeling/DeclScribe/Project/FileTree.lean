import DeclScribe.Path
import DeclScribe.Settings.Document
import DeclScribe.Syntax.Tree
import DeclScribe.Text.Bytes

/-!
Files and directories, and how path texts find them.
-/

namespace DeclScribe

/-- A file: its bytes, and what a parser makes of their text, be it source code or settings. -/
structure File where
  bytes : List UInt8
  tree : Option Syntax.Tree := none
  document : Option Document := none
deriving Inhabited, Repr

def File.text? (f : File) : Option String := Text.decode? f.bytes

inductive Entry where
  | file (file : File)
  | directory (entries : List (String × Entry))
deriving Repr

namespace Entry

instance : Inhabited Entry := ⟨directory []⟩

def entries : Entry → List (String × Entry)
  | file _ => []
  | directory es => es

def isDirectory : Entry → Bool
  | file _ => false
  | directory _ => true

def child? (e : Entry) (name : String) : Option Entry := e.entries.lookup name

def childFile? (e : Entry) (name : String) : Option File :=
  match e.child? name with
  | some (file f) => some f
  | _ => none

/-- The entry at the end of a chain of names. -/
def at? (e : Entry) : List String → Option Entry
  | [] => some e
  | name :: names => (e.child? name).bind (·.at? names)

/-- The entries with the named one replaced, or added behind the others. -/
def setEntry (name : String) (new : Entry) : List (String × Entry) → List (String × Entry)
  | [] => [(name, new)]
  | (n, e) :: es => if n = name then (name, new) :: es else (n, e) :: setEntry name new es

/-- Changes the entry at the end of a chain of names. What the chain lacks is made: directories, and
an empty one at its end. -/
def modifyAt (change : Entry → Entry) (e : Entry) : List String → Entry
  | [] => change e
  | name :: names =>
    directory (setEntry name (((e.child? name).getD default).modifyAt change names) e.entries)

end Entry

inductive ReadError where
  | missing
  | notDirectory
  | isDirectory
  | notText
  | tooLong
  | nullCharacter
deriving DecidableEq, Repr

def ReadError.message : ReadError → String
  | missing => "No such file or directory (os error 2)"
  | notDirectory => "Not a directory (os error 20)"
  | isDirectory => "Is a directory (os error 21)"
  | notText => "stream did not contain valid UTF-8"
  | tooLong => "File name too long (os error 36)"
  | nullCharacter => "file name contained an unexpected NUL byte"

/-- All files, and the directory at which relative paths start, as the names that lead to it from
the top. -/
structure FileTree where
  top : Entry := .directory []
  current : List String := []
deriving Inhabited, Repr

namespace FileTree

def addFile (t : FileTree) (names : List String) (f : File) : FileTree :=
  { t with top := t.top.modifyAt (fun _ => .file f) names }

def addDirectory (t : FileTree) (names : List String) : FileTree :=
  { t with top := t.top.modifyAt id names }

def currentPath (t : FileTree) : String := "/" ++ Path.ofNames t.current

/-- How many bytes a name may have. -/
def nameLimit : Nat := 255

/-- How many bytes a path may have. -/
def pathLimit : Nat := 4095

/-- One step along a path. Only from a directory is there a way on. -/
def step (t : FileTree) (here : List String) (segment : String) : Except ReadError (List String) :=
  match t.top.at? here with
  | some (.directory entries) =>
    if segment = "" || segment = "." then .ok here
    else if segment = ".." then .ok here.dropLast
    else if nameLimit < segment.utf8ByteSize then .error .tooLong
    else if (entries.lookup segment).isSome then .ok (here ++ [segment])
    else .error .missing
  | _ => .error .notDirectory

/-- The names that lead from the top to what a path text stands for. -/
def locate (t : FileTree) (path : String) : Except ReadError (List String) :=
  if path.toList.contains '\x00' then .error .nullCharacter
  else if path.isEmpty then .error .missing
  else if pathLimit < path.utf8ByteSize then .error .tooLong
  else (Path.segments path).foldlM t.step (if Path.isAbsolute path then [] else t.current)

def read (t : FileTree) (path : String) : Except ReadError File := do
  match t.top.at? (← t.locate path) with
  | some (.file f) => return f
  | some (.directory _) => throw .isDirectory
  | none => throw .missing

def contains (t : FileTree) (path : String) : Bool := t.locate path matches .ok _

def isFile (t : FileTree) (path : String) : Bool := t.read path matches .ok _

end FileTree

end DeclScribe
