import DeclScribe.Project.Ignore

/-!
Which entries of a listing are admitted by the rules around them.
-/

namespace DeclScribe.Project

/-- The rules of a directory, and the path of an entry as the directory sees it. -/
abbrev RulesAndPath := DirectoryRules × String

/-- What the nearest directory that speaks of an entry says, of the directories with the innermost
first. -/
def nearest (kind : DirectoryRules → List IgnoreRule) (isDirectory : Bool)
    (levels : List RulesAndPath) : Option Verdict :=
  levels.findSome? fun (d, path) => IgnoreRule.verdictOf (kind d) path isDirectory

/-- The directories up to the top of the innermost repository; none outside of repositories. -/
def repository (levels : List RulesAndPath) : List RulesAndPath :=
  match levels.find? (·.1.isRepository) with
  | none => []
  | some top => levels.takeWhile (!·.1.isRepository) ++ [top]

/-- The rules for the entries of a directory in a listing. -/
structure Surroundings where
  /-- The path of the listed directory, as it is given. -/
  root : String
  /-- The path of the listed directory from the top. -/
  location : String
  /-- The path of the directory that the user's rules are about. -/
  current : String
  /-- The rules that the user has for all repositories. -/
  user : List IgnoreRule
  /-- The rules of the directories from the listed one on, innermost first. -/
  inner : List DirectoryRules
  /-- The rules of the directories around the listed one, innermost first. -/
  outer : List DirectoryRules
deriving Repr

namespace Surroundings

/-- The rules around a directory that is about to be listed. `names` lead to it from the top. -/
def ofRoot (t : FileTree) (user : List IgnoreRule) (root : String) (names : List String) :
    Surroundings where
  root := root
  location := "/" ++ Path.ofNames names
  current := t.currentPath
  user := user
  inner := []
  outer := ((List.range names.length).filterMap fun depth =>
    let above := names.take depth
    (t.top.at? above).map (DirectoryRules.ofEntry t ("/" ++ Path.ofNames above))).reverse

def enter (s : Surroundings) (d : DirectoryRules) : Surroundings := { s with inner := d :: s.inner }

def locationOf (s : Surroundings) (path : String) : String :=
  let path := Path.dropHere path
  Path.join s.location <|
    if Path.isJust "." s.root then path
    else Path.dropText "/" (Path.dropText (Path.dropHere s.root) path)

/-- What the directories see of the entry at a path. Those around the listed directory see where the
entry is from the top. -/
def levels (s : Surroundings) (path : String) : List RulesAndPath :=
  s.inner.map (fun d => (d, Path.below d.path (Path.dropHere path))) ++
    s.outer.map fun d => (d, Path.below d.path (s.locationOf path))

def userVerdict (s : Surroundings) (path : String) (isDirectory : Bool) : Option Verdict :=
  IgnoreRule.verdictOf s.user (Path.below s.current (Path.dropHere path)) isDirectory

/-- What all rules say of the entry at a path. Those about version control count only in
repositories. -/
def verdict (s : Surroundings) (path : String) (isDirectory : Bool) : Option Verdict :=
  let levels := s.levels path
  let tracked := repository levels
  (nearest DirectoryRules.own isDirectory levels).or <|
    (nearest DirectoryRules.shared isDirectory levels).or <|
      (nearest DirectoryRules.versioned isDirectory tracked).or <|
        (nearest DirectoryRules.excluded isDirectory tracked).or <|
          if tracked.isEmpty then none else s.userVerdict path isDirectory

/-- Whether the entry at a path is listed. Entries whose name starts with a dot are hidden unless a
rule keeps them. -/
def admits (s : Surroundings) (path name : String) (isDirectory : Bool) : Bool :=
  match s.verdict path isDirectory with
  | some .ignore => false
  | some .keep => true
  | none => name.toList.head? != some '.'

end Surroundings

end DeclScribe.Project
