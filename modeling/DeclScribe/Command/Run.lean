import DeclScribe.Command.Invocation
import DeclScribe.Project.Collect
import DeclScribe.Project.Listing
import DeclScribe.Project.UserRules

/-!
Running commands on a file tree. A command that succeeds has only output, one that fails only a
report.
-/

namespace DeclScribe

namespace Command

/-- Why a command fails: what is wrong, and what is behind that, outermost first. -/
structure Failure where
  message : String
  causes : List String := []
deriving DecidableEq, Repr

namespace Failure

/-- A cause behind its label. Further lines of the cause are indented as far as the label. -/
def labelled (label : List Char) (cause : String) : List Char :=
  let indent := '\n' :: List.replicate label.length ' '
  '\n' :: label ++ cause.toList.flatMap fun c => if c = '\n' then indent else [c]

/-- The label of a cause that has a number. -/
def number (n : Nat) : List Char :=
  let digits := Nat.toDigits 10 n
  List.replicate (5 - digits.length) ' ' ++ digits ++ [':', ' ']

/-- The lines that tell of causes. Several causes are numbered. -/
def causeLines : List String → List Char
  | [] => []
  | [cause] => "\n\nCaused by:".toList ++ labelled (List.replicate 4 ' ') cause
  | causes =>
    "\n\nCaused by:".toList ++
      (causes.mapIdx fun n cause => labelled (number n) cause).flatten

def report (f : Failure) : String :=
  "Error: " ++ f.message ++ String.ofList (causeLines f.causes) ++ "\n"

def ofSettings (e : SettingsError) : Failure := { message := e.message }

def ofLookup (e : LookupError) : Failure := ⟨e.message, e.causes⟩

def ofPattern (e : Glob.PatternError) : Failure := ⟨e.message, [e.cause]⟩

end Failure

def runDescribe (t : FileTree) (settings : AttributeSettings) (path : String) (offset : Nat)
    (protocol : Option String) : Except Failure String := do
  match ← (t.describeAt settings path offset protocol).mapError .ofLookup with
  | some d => return d.render ++ "\n"
  | none =>
    throw { message := "no method or lambda at offset " ++ toString offset ++ " in " ++ path }

/-- The languages that a name or an extension stands for; all unless one is given. -/
def languages : Option String → Except Failure (List Language)
  | none => .ok Language.all
  | some s =>
    match (Language.ofName? s).or (Language.ofExtension? s) with
    | some l => .ok [l]
    | none => .error { message := "unsupported language: " ++ s }

def runList (t : FileTree) (env : Environment) (settings : AttributeSettings) (root : String)
    (language : Option String) (patterns : List String) (oneALine : Bool) :
    Except Failure String := do
  let ls ← languages language
  let user := Project.userRules t env
  let files ← (Project.sourceFiles t user root ls patterns).mapError .ofPattern
  if files.isEmpty then
    throw { message := "No " ++ "/".intercalate (ls.map Language.name) ++
      " source files found in " ++ root }
  let listings := t.listFiles settings root files
  return if oneALine then Listing.renderLines listings
    else Listing.renderGrouped listings ++ "\n"

/-- The directory that is listed: the one that is asked for, or else the whole project. -/
def listedRoot (project : String) (directory : Option String) : String :=
  match directory with
  | some d => Path.join project d
  | none => project

def run (t : FileTree) (env : Environment) (settings : AttributeSettings) (project : String) :
    Command → Except Failure String
  | describe file offset protocol =>
    runDescribe t settings (Path.join project file) offset protocol
  | list directory language patterns oneALine =>
    runList t env settings (listedRoot project directory) language patterns oneALine

end Command

/-- The output of an invocation: settings first, then the command. -/
def Invocation.run (i : Invocation) (t : FileTree) (env : Environment) :
    Except Command.Failure String := do
  let project := i.project.getD t.currentPath
  let settings ← (t.loadSettings env project).mapError .ofSettings
  i.command.run t env settings project

/-- What the program leaves behind: its exit status and its two streams. -/
structure Outcome where
  status : Nat
  output : String
  errors : String
deriving DecidableEq, Repr

/-- The outcome of arguments that ask for nothing. -/
def Outcome.usage : Outcome :=
  ⟨2, "", "usage: [--project DIR] describe FILE --offset N [--protocol P]\n" ++
    "       [--project DIR] list [DIR] [--lang L] [--include GLOB] [--jsonl]\n"⟩

def Outcome.ofArguments (t : FileTree) (env : Environment) (args : List String) : Outcome :=
  match Invocation.ofArguments? args with
  | none => .usage
  | some i =>
    match i.run t env with
    | .ok output => ⟨0, output, ""⟩
    | .error failure => ⟨1, "", failure.report⟩

end DeclScribe
