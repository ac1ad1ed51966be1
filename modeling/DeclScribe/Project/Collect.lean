import DeclScribe.Language
import DeclScribe.Project.Surroundings

/-!
The source files of a directory.
-/

namespace DeclScribe.Project

mutual

/-- The names that lead from the listed directory to the files at and below an entry, whose path is
`path`. -/
def filesOf (t : FileTree) (around : Surroundings) (path : String) (names : List String) :
    Entry → List (List String)
  | .file _ => [names]
  | .directory entries =>
    filesAmong t (around.enter (.ofEntry t path (.directory entries))) path names entries

/-- The names that lead to the files at and below those of some entries of a directory that rules
admit. -/
def filesAmong (t : FileTree) (around : Surroundings) (path : String) (names : List String) :
    List (String × Entry) → List (List String)
  | [] => []
  | (name, e) :: rest =>
    let here := Path.join path name
    (if around.admits here name e.isDirectory then
      filesOf t around here (names ++ [name]) e else []) ++
      filesAmong t around path names rest

end

/-- The files at and below a path, each as the names that lead to it from there. A path that leads
nowhere has none, and a file has itself, with no names. A dash stands for the standard input. `user`
are the rules of the user. -/
def filesBelow (t : FileTree) (user : List IgnoreRule) (root : String) : List (List String) :=
  match t.locate root with
  | .error _ => []
  | .ok base =>
    match t.top.at? base with
    | none => []
    | some e =>
      if Path.isJust "-" root then [] else filesOf t (.ofRoot t user root base) root [] e

/-- The path at which a listing meets a file. -/
def walkedPath (root : String) (names : List String) : String :=
  if names.isEmpty then root else Path.join root (Path.ofNames names)

/-- The source files below a path that are in one of the languages and selected by the patterns, as
sorted relative paths. A file whose path is too long is not there. -/
def sourceFiles (t : FileTree) (user : List IgnoreRule) (root : String) (languages : List Language)
    (patterns : List String) : Except Glob.PatternError (List String) := do
  let globs ← Glob.parseAll patterns
  let files := (filesBelow t user root).filter fun names =>
    t.isFile (walkedPath root names) &&
      (Language.ofPath? (walkedPath root names)).any languages.contains &&
      Glob.selects globs (Path.ofNames names)
  return (files.mergeSort Path.le).map Path.ofNames

end DeclScribe.Project
