import DeclScribe.Project.FileTree

/-!
Version-controlled directories, and where a repository keeps what it does not track.
-/

namespace DeclScribe.Project

def firstLine? (t : FileTree) (path : String) : Option String := do
  let f ← (t.read path).toOption
  Text.decode? (← (Text.lines f.bytes).head?)

/-- Whether a directory is the top of a repository. -/
def isRepository (e : Entry) : Bool := (e.child? ".git").isSome || (e.child? ".jj").isSome

/-- The directory that a repository shares with its other working copies. `link` is the line that
leads to the part of it that belongs to this copy. -/
def sharedStore? (t : FileTree) (link : String) : Option String := do
  let own ← "gitdir: ".toList.isPrefixOf? link.toList
  let own := String.ofList own
  let common ← firstLine? t (Path.join own "commondir")
  return if common.toList.head? == some '.' then Path.join own common else common

/-- The directory that holds the data of a repository, whose top is at a path. -/
def store? (t : FileTree) (path : String) (e : Entry) : Option String :=
  let place := Path.join path ".git"
  match e.child? ".git" with
  | some (.file _) => (firstLine? t place).bind (sharedStore? t)
  | _ => some place

/-- The file of the rules that are kept in a repository. -/
def excludeFile? (t : FileTree) (path : String) (e : Entry) : Option File := do
  (t.read (Path.join (← store? t path e) "info/exclude")).toOption

end DeclScribe.Project
