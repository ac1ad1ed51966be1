import DeclScribe.Settings.Document
import DeclScribe.Text.Blank

/-!
Loading the attribute settings of a project. A variable of the environment wins over the settings
file, which wins over the defaults; only the outcome is checked.
-/

namespace DeclScribe

abbrev Environment := String → Option String

/-- What stands where the settings file should be. A text that is no document has `none`. -/
inductive SettingsFile where
  | absent
  | unreadable (reason : String)
  | written (document : Option Document)
deriving Repr

inductive SettingsError where
  | unreadable (reason : String)
  | malformed
  | emptyExternalLabel
  | emptyInterfaceLabel
  | repeatedKeyword (keyword : String)
deriving DecidableEq, Repr

def SettingsError.message : SettingsError → String
  | unreadable reason => reason
  | malformed => "the settings file cannot be decoded"
  | emptyExternalLabel => "attributes.external_label must not be empty"
  | emptyInterfaceLabel => "attributes.interface_label must not be empty"
  | repeatedKeyword k => "attributes.recognized lists `" ++ k ++ "` more than once"

namespace AttributeSettings

/-- The label that a variable sets: its trimmed value, unless that is empty. -/
def labelOf (value : Option String) : Option String :=
  (value.map Text.trim).filter (· ≠ "")

/-- The list that a variable sets: its parts between commas, trimmed, without the empty ones,
unless none is left. -/
def listOf (value : Option String) : Option (List String) :=
  let items := (value.map fun s =>
    ((Text.splitOn ',' s.toList).map fun part => Text.trim (String.ofList part)).filter (· ≠ ""))
  items.filter (· ≠ [])

def variableNames : List String :=
  ["CODEDOWN_EXTERNAL_LABEL", "CODEDOWN_INTERFACE_LABEL", "CODEDOWN_RECOGNIZED_ATTRIBUTES"]

def environmentOverrides (env : Environment) : AttributeOverrides where
  externalLabel := labelOf (env "CODEDOWN_EXTERNAL_LABEL")
  interfaceLabel := labelOf (env "CODEDOWN_INTERFACE_LABEL")
  recognized := listOf (env "CODEDOWN_RECOGNIZED_ATTRIBUTES")

/-- The first element that repeats an earlier one, given the elements before. -/
def firstRepeat (earlier : List String) : List String → Option String
  | [] => none
  | x :: rest => if x ∈ earlier then some x else firstRepeat (x :: earlier) rest

/-- Refuses blank labels and repeated keywords. -/
def validate (settings : AttributeSettings) : Except SettingsError Unit :=
  if Text.isBlankText settings.externalLabel then .error .emptyExternalLabel
  else if Text.isBlankText settings.interfaceLabel then .error .emptyInterfaceLabel
  else match firstRepeat [] settings.recognized with
    | some k => .error (.repeatedKeyword k)
    | none => .ok ()

def fileOverrides : SettingsFile → Except SettingsError AttributeOverrides
  | .absent => .ok {}
  | .unreadable reason => .error (.unreadable reason)
  | .written document =>
    match document.bind Document.overrides? with
    | some overrides => .ok overrides
    | none => .error .malformed

def load (file : SettingsFile) (env : Environment) : Except SettingsError AttributeSettings := do
  let overrides ← fileOverrides file
  let settings := (environmentOverrides env).apply (overrides.apply {})
  settings.validate
  return settings

end AttributeSettings

end DeclScribe
