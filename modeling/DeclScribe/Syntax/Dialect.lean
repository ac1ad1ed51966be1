import DeclScribe.Node.Basic
import DeclScribe.Syntax.Cursor
import DeclScribe.Text.TypeText

/-!
Dialects: how the syntax trees of a language tell what their nodes declare.
-/

namespace DeclScribe.Syntax

/-- The answers of a language about a node of one of its trees. Some need the source text. -/
structure Dialect where
  kind : Cursor → NodeKind
  nameNode : Cursor → Option Cursor
  name : String → Cursor → Option String
  qualifiedName : String → Cursor → Option String
  modifiers : String → Cursor → List String
  isConstructor : Cursor → Bool
  isInterface : Cursor → Bool
  parameters : String → Cursor → List Cursor
  typeText : String → Cursor → Option String

/-- What stands for the type of a parameter that has none in the source. -/
def unresolvedType : String := "<unresolved>"

def typeTextOf (source : String) (c : Cursor) : String := Text.canonicalType (c.text source)

/-- A list of words with a word at its end, unless it has the word already. -/
def adding (word : String) (words : List String) : List String :=
  if words.contains word then words else words ++ [word]

section Qualified

variable (kind : Cursor → NodeKind) (name package : Cursor → Option String)

/-- The parts of a qualified name that nodes above a class give, nearest first: the names of the
classes and the package of the file. Within a method, a lambda or a class without a name there is
no qualified name. -/
def outerNames : List Cursor → Option (List String)
  | [] => some []
  | a :: rest => do
    let own ← match kind a with
      | .type => (name a).map ([·])
      | .method | .lambda => none
      | .parameter | .other => some []
    let outer ← outerNames rest
    return own ++ (package a).toList ++ outer

/-- The qualified name of a class of the given name: package, outer classes and the name, joined
by dots. -/
def qualify (c : Cursor) : Option String := do
  let own ← name c
  let outer ← outerNames kind name package c.ancestors
  return ".".intercalate (own :: outer).reverse

end Qualified

end DeclScribe.Syntax
