import DeclScribe.Command.Switches
import DeclScribe.Json.Number

/-!
What a command line asks for.
-/

namespace DeclScribe

/-- A task. A path that is not absolute starts at the project. -/
inductive Command where
  /-- Describe the innermost method or lambda at a byte offset in a file. -/
  | describe (file : String) (offset : Nat) (protocol : Option String)
  /-- List the descriptions of all source files below a directory, which is the project unless one
  is given. -/
  | list (directory : Option String) (language : Option String) (patterns : List String)
    (oneALine : Bool)
deriving DecidableEq, Repr

/-- A task in a project, which is the current directory unless one is given. -/
structure Invocation where
  project : Option String
  command : Command
deriving DecidableEq, Repr

namespace Command

/-! ### Switches -/

/-- The directory of the project. It may stand before or behind the name of the task. -/
def projectSwitch : Switch := { name := "project", letter := some 'p' }

def offsetSwitch : Switch := { name := "offset", letter := some 'o' }

def protocolSwitch : Switch := { name := "protocol" }

def languageSwitch : Switch := { name := "lang", letter := some 'l' }

def includeSwitch : Switch := { name := "include" }

/-- One description a line. -/
def lineSwitch : Switch := { name := "jsonl", takesValue := false }

/-! ### Values -/

/-- A path is not empty. -/
def path? (s : String) : Option String := if s.isEmpty then none else some s

/-- A natural below `2 ^ 64` in decimal digits, maybe behind a plus sign. -/
def natural? (s : String) : Option Nat :=
  let digits := match s.toList with
    | '+' :: rest => rest
    | cs => cs
  if digits ≠ [] && digits.all Char.isDigit && Json.digitsValue digits < Json.wordLimit then
    some (Json.digitsValue digits)
  else none

def project? (items : List Item) : Option (Option String) := do
  match ← valueOf? projectSwitch items with
  | none => return none
  | some s => return some (← path? s)

/-! ### Tasks -/

def describe? (args : List String) : Option Invocation := do
  let items ← items? [projectSwitch, offsetSwitch, protocolSwitch] args
  match operands items with
  | [file] =>
    let offset ← natural? (← ← valueOf? offsetSwitch items)
    return ⟨← project? items,
      .describe (← path? file) offset (← valueOf? protocolSwitch items)⟩
  | _ => none

def directory? : List String → Option (Option String)
  | [] => some none
  | [s] => (path? s).map some
  | _ => none

def list? (args : List String) : Option Invocation := do
  let items ← items? [projectSwitch, languageSwitch, includeSwitch, lineSwitch] args
  let oneALine ← valueOf? lineSwitch items
  return ⟨← project? items,
    .list (← directory? (operands items)) (← valueOf? languageSwitch items)
      (valuesOf includeSwitch items) oneALine.isSome⟩

def ofName? : String → List String → Option Invocation
  | "describe", args => describe? args
  | "list", args => list? args
  | _, _ => none

end Command

/-- What the arguments of the program ask for. A project that is named behind the name of the task
goes before one that is named in front. -/
def Invocation.ofArguments? (args : List String) : Option Invocation := do
  let (items, name, rest) ← Command.itemsBeforeOperand? [Command.projectSwitch] args
  let outer ← Command.project? items
  let i ← Command.ofName? name rest
  return { i with project := i.project.or outer }

end DeclScribe
