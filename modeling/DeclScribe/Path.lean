import DeclScribe.Text.Blank

/-!
Paths as text. Segments are parted by `/`; a path that starts with `/` is absolute.
-/

namespace DeclScribe.Path

/-- What stands between the slashes, empty pieces included. -/
def segments (path : String) : List String :=
  (Text.splitOn '/' path.toList).map String.ofList

/-- The segments that name something: neither empty nor `.`. -/
def names (path : String) : List String :=
  (segments path).filter fun s => s ≠ "" && s ≠ "."

def isAbsolute (path : String) : Bool := path.toList.head? == some '/'

/-- The last component, unless it is `..` or there is none. -/
def fileName (path : String) : Option String :=
  (names path).getLast?.filter (· ≠ "..")

/-- What follows the last dot of the file name. A dot at the front of the name does not count. -/
def extension (path : String) : Option String :=
  (fileName path).bind fun name =>
    let suffix := (name.toList.reverse.takeWhile (· ≠ '.')).reverse
    if suffix.length + 1 < name.toList.length then some (String.ofList suffix) else none

/-- The second path as seen from the first. -/
def join (base path : String) : String :=
  if isAbsolute path || base.isEmpty then path
  else if base.toList.getLast? == some '/' then base ++ path
  else base ++ "/" ++ path

/-- Whether a path is the given segment, with nothing behind it that leads on. -/
def isJust (name path : String) : Bool :=
  match segments path with
  | [] => false
  | first :: rest => first == name && rest.all fun s => s = "" || s = "."

def dropText (front path : String) : String :=
  match front.toList.isPrefixOf? path.toList with
  | some rest => String.ofList rest
  | none => path

def dropHere (path : String) : String := dropText "./" path

/-- What follows a directory in the text of a path. A path that does not continue the text of the
directory stays as it is, and so does a mere name. -/
def below (directory path : String) : String :=
  let base := dropHere directory
  let path := dropHere path
  if isJust "." base || !path.toList.contains '/' then path
  else
    match base.toList.isPrefixOf? path.toList with
    | some rest => dropText "/" (String.ofList rest)
    | none => path

def ofNames (names : List String) : String := "/".intercalate names

/-- Whether a name comes before another: at the first character in which they differ, the smaller
one decides, which is also the order of their bytes. -/
def nameLt (a b : String) : Bool := List.lex a.toList b.toList fun c d => c.toNat < d.toNat

/-- The order of paths: component by component, each in the order of its bytes. -/
def le (a b : List String) : Bool := !List.lex b a nameLt

end DeclScribe.Path
