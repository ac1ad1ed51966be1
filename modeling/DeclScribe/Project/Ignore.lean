import DeclScribe.Glob.Basic
import DeclScribe.Project.Repository

/-!
Rules that leave entries out of a listing. Each directory may hold several files of rules; rules
speak of what is below their directory, as far as the texts of the paths tell.
-/

namespace DeclScribe.Project

inductive Verdict where
  | ignore
  | keep
deriving DecidableEq, Repr

/-- A rule about the entries whose path fits a pattern. -/
structure IgnoreRule where
  pattern : Glob
  verdict : Verdict
  directoriesOnly : Bool
deriving Repr

namespace IgnoreRule

/-- Whether a rule speaks of an entry. The path is seen from the directory of the rule. -/
def concerns (r : IgnoreRule) (path : String) (isDirectory : Bool) : Bool :=
  (isDirectory || !r.directoriesOnly) && r.pattern.matchesPath path

/-! ### Reading rules -/

/-- The text without the white space at its end, unless its last space is escaped. -/
def trimEnd (line : List Char) : List Char :=
  if ['\\', ' '].isSuffixOf line then line else Text.dropBack Text.isBlank line

def takeVerdict : List Char → Verdict × List Char
  | '!' :: s => (.keep, s)
  | s => (.ignore, s)

/-- Takes off the escape of a mark at the front, or the mark of a rule that keeps entries and the
slash that ties a rule to its directory. The result is the verdict, whether the rule is tied to its
directory, and the pattern. -/
def takeFront : List Char → Verdict × Bool × List Char
  | '\\' :: '!' :: s => (.ignore, false, '!' :: s)
  | '\\' :: '#' :: s => (.ignore, false, '#' :: s)
  | s =>
    match takeVerdict s with
    | (verdict, '/' :: s) => (verdict, true, s)
    | (verdict, s) => (verdict, false, s)

/-- Takes off the slash, itself escaped or not, that ends a rule about directories. -/
def takeBack (s : List Char) : Bool × List Char :=
  match s.reverse with
  | '/' :: '\\' :: r => (true, r.reverse)
  | '/' :: r => (true, r.reverse)
  | _ => (false, s)

/-- The pattern of a rule, which finds entries at every depth unless the rule is tied to its
directory or has a slash. -/
def atAnyDepth (tied : Bool) (s : List Char) : List Char :=
  if tied || s.contains '/' || s = ['*', '*'] then s else '*' :: '*' :: '/' :: s

/-- The pattern of a rule. If it is about all that is below a directory, it is not about the
directory. -/
def belowOnly (s : List Char) : List Char :=
  if ['/', '*', '*'].isSuffixOf s then s ++ ['/', '*'] else s

def ofLine? (line : List Char) : Option IgnoreRule :=
  let text := trimEnd line
  if line.head? == some '#' || text.isEmpty then none
  else
    let (verdict, tied, front) := takeFront text
    let (directoriesOnly, body) := takeBack front
    match Glob.parse .ignoring (String.ofList (belowOnly (atAnyDepth tied body))) with
    | .error _ => none
    | .ok pattern => some ⟨pattern, verdict, directoriesOnly⟩

/-- The lines before the first that is no UTF-8. -/
def readableLines (bytes : List UInt8) : List (List Char) :=
  (((Text.lines bytes).map Text.decode?).takeWhile Option.isSome).filterMap fun l =>
    l.map String.toList

/-- The rules of some lines. None of them counts if the pattern of one nests too deep. -/
def ofLines (lines : List (List Char)) : List IgnoreRule :=
  let rules := lines.filterMap ofLine?
  if rules.any (·.pattern.isTooDeep) then [] else rules

/-- The rules of a file. Byte order marks at its front count for nothing. -/
def ofBytes (bytes : List UInt8) : List IgnoreRule :=
  match readableLines bytes with
  | [] => []
  | first :: rest => ofLines (first.dropWhile (· == '\ufeff') :: rest)

/-- What the last of the rules that concern an entry says. -/
def verdictOf (rules : List IgnoreRule) (path : String) (isDirectory : Bool) : Option Verdict :=
  (rules.reverse.find? (·.concerns path isDirectory)).map verdict

end IgnoreRule

/-! ### Directories -/

/-- The rules that a directory holds. -/
structure DirectoryRules where
  path : String
  /-- Rules of this program. -/
  own : List IgnoreRule
  /-- Rules of all programs that list files. -/
  shared : List IgnoreRule
  /-- Rules of a version-controlled directory. -/
  versioned : List IgnoreRule
  /-- Rules of the repository whose top the directory is. -/
  excluded : List IgnoreRule
  isRepository : Bool
deriving Repr

namespace DirectoryRules

def rulesIn (f : Option File) : List IgnoreRule :=
  (f.map fun f => IgnoreRule.ofBytes f.bytes).getD []

def ofEntry (t : FileTree) (path : String) (e : Entry) : DirectoryRules where
  path := path
  own := rulesIn (e.childFile? ".codedownignore")
  shared := rulesIn (e.childFile? ".ignore")
  versioned := rulesIn (e.childFile? ".gitignore")
  excluded := rulesIn (excludeFile? t path e)
  isRepository := Project.isRepository e

end DirectoryRules

end DeclScribe.Project
