import DeclScribe.Project.Ignore
import DeclScribe.Settings.Load

/-!
The rules that a user has for all repositories. The user's version control settings may name their
file.
-/

namespace DeclScribe.Project

/-! ### The file that settings name

Settings need not be UTF-8, so they are read byte by byte.
-/

def isSpacing (b : UInt8) : Bool := b = 32 || (9 ≤ b && b ≤ 13)

def lineFeed : UInt8 := 10

def quotationMark : UInt8 := 34

def equalsSign : UInt8 := 61

def lowercase (b : UInt8) : UInt8 := if 65 ≤ b && b ≤ 90 then b + 32 else b

/-- Whether only white space is left up to the end of a line. -/
def endsLine (s : List UInt8) : Bool :=
  (s.dropWhile isSpacing).isEmpty || (s.takeWhile isSpacing).contains lineFeed

/-- What follows a byte, with white space before it. -/
def after? (b : UInt8) (s : List UInt8) : Option (List UInt8) :=
  match s.dropWhile isSpacing with
  | [] => none
  | c :: rest => if c = b then some rest else none

/-- The word at the front of a text, without a quotation mark at its end, if it ends a line. -/
def lastWord? (s : List UInt8) : Option (List UInt8) :=
  let word := s.takeWhile (!isSpacing ·)
  let rest := s.dropWhile (!isSpacing ·)
  if 1 < word.length && word.getLast? == some quotationMark && endsLine rest then
    some word.dropLast
  else if !word.isEmpty && (endsLine rest || (after? quotationMark rest).any endsLine) then
    some word
  else none

/-- The word that is assigned to a key. A quotation mark before it does not count. -/
def assigned? (s : List UInt8) : Option (List UInt8) := do
  let value := (← after? equalsSign s).dropWhile isSpacing
  let unquoted := (after? quotationMark value).bind fun word =>
    lastWord? (word.dropWhile isSpacing)
  unquoted.or (lastWord? value)

/-- The key of the setting that names the file of the user's rules. -/
def excludesKey : List UInt8 := Text.encode "excludesfile"

/-- The file that is named at the front of a text. The case of the key does not count. -/
def namedAtFront? (s : List UInt8) : Option (List UInt8) :=
  let s := s.dropWhile isSpacing
  let size := excludesKey.length
  if (s.take size).map lowercase = excludesKey then assigned? (s.drop size) else none

def behindLineFeeds : List UInt8 → List (List UInt8)
  | [] => []
  | b :: s => if b = lineFeed then s :: behindLineFeeds s else behindLineFeeds s

/-- The file that the first line to name one names. -/
def excludesFile? (settings : List UInt8) : Option String :=
  ((settings :: behindLineFeeds settings).findSome? namedAtFront?).bind Text.decode?

/-! ### The rules of a user -/

def homeVariable : String := "HOME"

/-- The variable that holds the directory of the user's settings. -/
def settingsVariable : String := "XDG_CONFIG_HOME"

def versionControlVariable : String := "GIT_CONFIG_GLOBAL"

def systemVariable : String := "GIT_CONFIG_SYSTEM"

def userVariables : List String :=
  [homeVariable, settingsVariable, versionControlVariable, systemVariable]

/-- The path that a variable holds. An empty one holds none. -/
def pathIn? (env : Environment) (name : String) : Option String :=
  (env name).filter (· ≠ "")

/-- The directory of the user's settings, which is by default one in the home directory. -/
def userSettings? (env : Environment) : Option String :=
  (pathIn? env settingsVariable).or
    ((pathIn? env homeVariable).map (Path.join · ".config"))

/-- The path with the home directory for each tilde. Without a home a tilde leads nowhere. -/
def expandHome? (env : Environment) (path : String) : Option String :=
  match pathIn? env homeVariable with
  | none => if path.toList.contains '~' then none else some path
  | some home => String.ofList (path.toList.flatMap fun c => if c = '~' then home.toList else [c])

def namedIn? (t : FileTree) (path : String) : Option String := do
  excludesFile? (← (t.read path).toOption).bytes

/-- The places of version control settings, the most important first. -/
def settingsPlaces (env : Environment) : List String :=
  [pathIn? env versionControlVariable,
    (pathIn? env homeVariable).map (Path.join · ".gitconfig"),
    (userSettings? env).map (Path.join · "git/config"),
    pathIn? env systemVariable].filterMap id

/-- The path of the user's rules: what the first settings to name one name, or else a fixed
place. -/
def userRulesPath? (t : FileTree) (env : Environment) : Option String :=
  match (settingsPlaces env).findSome? (namedIn? t) with
  | some path => expandHome? env path
  | none => (userSettings? env).map (Path.join · "git/ignore")

def userRules (t : FileTree) (env : Environment) : List IgnoreRule :=
  match (userRulesPath? t env).map t.read with
  | some (.ok f) => IgnoreRule.ofBytes f.bytes
  | _ => []

end DeclScribe.Project
