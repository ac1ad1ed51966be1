import DeclScribe.Description.Json
import DeclScribe.Json.Parser
import DeclScribe.Json.Printer

/-!
Written descriptions: one record over indented lines, or one record a line.
-/

namespace DeclScribe.Description

open Json

/-- Why a text is no description. -/
inductive RecordError where
  /-- The text is not JSON, or not a record of this kind. -/
  | malformed
  /-- A record has different numbers of parameter names and types. -/
  | unpaired (offset names types : Nat)
deriving DecidableEq, Repr

def RecordError.message : RecordError → String
  | malformed => "failed to deserialize description from JSON"
  | unpaired offset names types =>
    "description at offset " ++ toString offset ++ " has " ++ toString names ++
      " parameter names but " ++ toString types ++ " parameter types"

/-- Refuses a description in which names and types do not pair up at some level. The error tells
of the outermost level, wherever the fault lies. -/
def validate (d : Description) : Except RecordError Unit :=
  if d.isWellFormed then .ok ()
  else .error (.unpaired d.offset d.parameters.names.length d.parameters.types.length)

def render (d : Description) : String := d.toJson.pretty

def renderLines (ds : List Description) : String :=
  String.join (ds.map fun d => d.toJson.compact ++ "\n")

def read (text : String) : Except RecordError Description :=
  match (Value.parse? text).bind (ofJson? false) with
  | none => .error .malformed
  | some d => do
    d.validate
    return d

end DeclScribe.Description
