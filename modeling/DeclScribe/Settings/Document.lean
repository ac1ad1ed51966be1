import DeclScribe.Settings.Attributes

/-!
The settings file. A document is a table of keys; the attribute settings are its key
`attributes`, and a key that is left out is not set.
-/

namespace DeclScribe

/-- A value in a settings file. Numbers, booleans and dates are all `other`. -/
inductive Document where
  | text (value : String)
  | list (items : List Document)
  | table (entries : List (String × Document))
  | other
deriving Inhabited, Repr

structure AttributeOverrides where
  recognized : Option (List String) := none
  externalLabel : Option String := none
  interfaceLabel : Option String := none
  compiledExtensions : Option (List String) := none
  archiveProtocols : Option (List String) := none
deriving DecidableEq, Repr

def AttributeOverrides.apply (overrides : AttributeOverrides) (settings : AttributeSettings) :
    AttributeSettings where
  recognized := overrides.recognized.getD settings.recognized
  externalLabel := overrides.externalLabel.getD settings.externalLabel
  interfaceLabel := overrides.interfaceLabel.getD settings.interfaceLabel
  compiledExtensions := overrides.compiledExtensions.getD settings.compiledExtensions
  archiveProtocols := overrides.archiveProtocols.getD settings.archiveProtocols

namespace Document

def asText? : Document → Option String
  | text s => some s
  | _ => none

def asTexts? : Document → Option (List String)
  | list items => items.mapM asText?
  | _ => none

/-- The fields of the given names. A table gives them by name, a list in order; what is left out
is `none`, and what is not asked for is ignored. -/
def fields? (names : List String) : Document → Option (List (Option Document))
  | table entries => some (names.map fun name => (entries.find? (·.1 == name)).map (·.2))
  | list items => some (names.mapIdx fun i _ => items[i]?)
  | _ => none

def optional? (read : Document → Option α) : Option Document → Option (Option α)
  | none => some none
  | some d => (read d).map some

def attributeOverrides? (d : Document) : Option AttributeOverrides :=
  match d.fields? ["recognized", "external_label", "interface_label", "compiled_extensions",
      "archive_protocols"] with
  | some [recognized, externalLabel, interfaceLabel, compiledExtensions, archiveProtocols] => do
    return {
      recognized := ← optional? asTexts? recognized
      externalLabel := ← optional? asText? externalLabel
      interfaceLabel := ← optional? asText? interfaceLabel
      compiledExtensions := ← optional? asTexts? compiledExtensions
      archiveProtocols := ← optional? asTexts? archiveProtocols }
  | _ => none

def overrides? (d : Document) : Option AttributeOverrides :=
  match d.fields? ["attributes"] with
  | some [attributes] => (optional? attributeOverrides? attributes).map (·.getD {})
  | _ => none

end Document

end DeclScribe
