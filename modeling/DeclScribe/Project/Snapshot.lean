import DeclScribe.Json.Value
import DeclScribe.Project.FileTree

/-!
Snapshots of projects in JSON. A snapshot lists files with their content, as text or as hexadecimal
digits, and with what parsers made of it: source code has its syntax tree, settings have their
document. An entry without content is an empty directory.
-/

namespace DeclScribe

open Json

/-! ### Syntax trees -/

def Syntax.Field.ofName? : String → Option Syntax.Field
  | "name" => some .name
  | "body" => some .body
  | "parameters" => some .parameters
  | "type" => some .type
  | "dimensions" => some .dimensions
  | _ => none

namespace Syntax.Tree

/-- The row of a syntax tree: depth, `1` for a named node, kind, start, stop, and the fields. -/
def rowOfJson? (v : Value) : Option (Nat × Label) := do
  match ← v.asArray? with
  | depth :: named :: kind :: start :: stop :: fields =>
    let fields := (fields.filterMap Value.asText?).filterMap Field.ofName?
    return (← depth.asNat?,
      ⟨← kind.asText?, (← named.asNat?) == 1, ← start.asNat?, ← stop.asNat?, fields⟩)
  | _ => none

def ofJson? (v : Value) : Option Tree := do
  ofRows? (← (← v.asArray?).mapM rowOfJson?)

end Syntax.Tree

/-! ### Settings -/

mutual

def Document.ofJson : Value → Document
  | .string s => .text s
  | .array items => .list (Document.listOfJson items)
  | .object members => .table (Document.tableOfJson members)
  | _ => .other

def Document.listOfJson : List Value → List Document
  | [] => []
  | v :: vs => .ofJson v :: Document.listOfJson vs

def Document.tableOfJson : List (String × Value) → List (String × Document)
  | [] => []
  | (name, v) :: members => (name, .ofJson v) :: Document.tableOfJson members

end

/-! ### Files -/

def File.bytesOfJson? (v : Value) : Option (List UInt8) :=
  match v.member? "content", v.member? "hex" with
  | some (.string text), _ => some (Text.encode text)
  | _, some (.string digits) => Text.bytesOfHex? digits.toList
  | _, _ => none

/-- The file of an entry, or nothing for one without content. -/
def File.ofJson? (v : Value) : Option File :=
  (File.bytesOfJson? v).map fun bytes =>
    { bytes
      tree := (v.member? "tree").bind Syntax.Tree.ofJson?
      document := match v.member? "toml_value" with
        | none | some .null => none
        | some d => some (.ofJson d) }

namespace FileTree

/-- Adds the entry of a snapshot at its path, as seen from the directory of the given names. -/
def addJson? (t : FileTree) (base : List String) (v : Value) : Option FileTree := do
  let names := base ++ Path.names (← (← v.member? "path").asText?)
  match File.ofJson? v with
  | some f => return t.addFile names f
  | none => return t.addDirectory names

/-- The tree that holds the entries of a snapshot in the directory of the given names. -/
def ofJson? (base : List String) (entries : List Value) : Option FileTree :=
  entries.foldlM (·.addJson? base) (({ current := base } : FileTree).addDirectory base)

end FileTree

end DeclScribe
