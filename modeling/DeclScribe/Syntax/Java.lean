import DeclScribe.Syntax.Dialect

/-!
Java syntax trees.
-/

namespace DeclScribe.Syntax

namespace Java

def typeKinds : List String :=
  ["class_declaration", "interface_declaration", "enum_declaration", "record_declaration",
    "annotation_type_declaration"]

def methodKinds : List String :=
  ["method_declaration", "constructor_declaration", "compact_constructor_declaration"]

def formalKinds : List String := ["formal_parameter", "spread_parameter"]

/-- Whether the node is an object creation or an enum constant with a class body. -/
def isAnonymousClass (c : Cursor) : Bool :=
  ["object_creation_expression", "enum_constant"].contains c.kind && c.hasChildOfKind "class_body"

/-- Whether the node is a parameter of a lambda that is written as its name alone. -/
def isLambdaIdentifier (c : Cursor) : Bool :=
  c.kind == "identifier" &&
    match c.parent with
    | none => false
    | some p =>
      p.kind == "inferred_parameters" ||
        (p.kind == "lambda_expression" && (p.childByField .parameters).any (·.isAt c))

def kind (c : Cursor) : NodeKind :=
  if typeKinds.contains c.kind || isAnonymousClass c then .type
  else if methodKinds.contains c.kind then .method
  else if c.kind == "lambda_expression" then .lambda
  else if formalKinds.contains c.kind || isLambdaIdentifier c then .parameter
  else .other

def nameNode (c : Cursor) : Option Cursor :=
  match c.kind with
  | "identifier" => some c
  | "spread_parameter" =>
    ((c.childOfKind "variable_declarator").bind (·.childByField .name)).or (c.childByField .name)
  | "object_creation_expression" => none
  | _ => c.childByField .name

def name (source : String) (c : Cursor) : Option String := (nameNode c).map (·.text source)

def package (source : String) (c : Cursor) : Option String :=
  if c.kind == "program" then do
    let declaration ← c.childOfKind "package_declaration"
    let found ← declaration.namedChildren.find? fun d =>
      ["scoped_identifier", "identifier"].contains d.kind
    return typeTextOf source found
  else none

def qualifiedName (source : String) (c : Cursor) : Option String :=
  if kind c = .type && !isAnonymousClass c then
    qualify kind (name source) (package source) c
  else none

def writtenModifiers (c : Cursor) : List String :=
  match c.childOfKind "modifiers" with
  | none => []
  | some m => (m.children.filter (!·.named)).map Cursor.kind

/-- Whether the node is a member of an interface or of an annotation type. -/
def isInterfaceMember (c : Cursor) : Bool :=
  match c.parent with
  | none => false
  | some body =>
    ["interface_body", "annotation_type_body"].contains body.kind && body.parent.isSome

/-- The modifiers. A member of an interface is public unless it is private, and static if it is a
type; a method without a body there is abstract unless its modifiers say otherwise. -/
def modifiers (c : Cursor) : List String :=
  let written := writtenModifiers c
  if !isInterfaceMember c then written
  else
    let visible := if written.contains "private" then written else adding "public" written
    if c.kind == "method_declaration" then
      let concrete := ["default", "static", "private"].any visible.contains
      if (c.childByField .body).isNone && !concrete then adding "abstract" visible else visible
    else if typeKinds.contains c.kind then adding "static" visible
    else visible

def isConstructor (c : Cursor) : Bool :=
  ["constructor_declaration", "compact_constructor_declaration"].contains c.kind

/-- Whether the node declares an interface; an annotation type is one. -/
def isInterface (c : Cursor) : Bool :=
  ["interface_declaration", "annotation_type_declaration"].contains c.kind

def formals (list : Option Cursor) : List Cursor :=
  match list with
  | none => []
  | some p => p.childrenOfKinds formalKinds

/-- The parameters of a declaration. A compact constructor takes the components of its record. -/
def parameters (c : Cursor) : List Cursor :=
  match c.kind with
  | "method_declaration" | "constructor_declaration" => formals (c.childByField .parameters)
  | "compact_constructor_declaration" =>
    let record := (c.parent.bind Cursor.parent).filter (·.kind == "record_declaration")
    formals (record.bind (·.childByField .parameters))
  | "lambda_expression" =>
    match c.childByField .parameters with
    | none => []
    | some p =>
      if p.kind == "identifier" then [p]
      else if p.kind == "inferred_parameters" then p.childrenOfKinds ["identifier"]
      else p.childrenOfKinds formalKinds
  | _ => []

/-- The type text. Dimensions that stand behind a name belong to the type. The type of a lambda is
not written. -/
def typeText (source : String) (c : Cursor) : Option String :=
  match c.kind with
  | "method_declaration" | "formal_parameter" => do
    let type ← c.childByField .type
    let dimensions := ((c.childByField .dimensions).map (typeTextOf source)).getD ""
    return typeTextOf source type ++ dimensions
  | "spread_parameter" => do
    let type ← c.namedChildren.find? fun d =>
      d.kind != "modifiers" && d.kind != "variable_declarator"
    return typeTextOf source type ++ "..."
  | "identifier" => if isLambdaIdentifier c then some unresolvedType else none
  | _ => none

end Java

def Dialect.java : Dialect where
  kind := Java.kind
  nameNode := Java.nameNode
  name := Java.name
  qualifiedName := Java.qualifiedName
  modifiers _ := Java.modifiers
  isConstructor := Java.isConstructor
  isInterface := Java.isInterface
  parameters _ := Java.parameters
  typeText := Java.typeText

end DeclScribe.Syntax
