import DeclScribe.Syntax.Dialect

/-!
Kotlin syntax trees.
-/

namespace DeclScribe.Syntax

namespace Kotlin

/-- The declarations of types, anonymous objects included. -/
def typeKinds : List String :=
  ["class_declaration", "object_declaration", "interface_declaration", "companion_object",
    "object_literal"]

def constructorKinds : List String := ["primary_constructor", "secondary_constructor"]

def methodKinds : List String :=
  ["function_declaration", "secondary_constructor", "primary_constructor"]

/-- Lambdas and functions without a name. -/
def lambdaKinds : List String := ["lambda_literal", "anonymous_function"]

def visibilities : List String := ["public", "protected", "private", "internal"]

/-- The modifiers that keep a declaration from being final. -/
def opening : List String := ["open", "abstract", "override", "sealed"]

def lambdaParameterKinds : List String := ["variable_declaration", "multi_variable_declaration"]

/-- The parameter of a lambda that declares none. -/
def implicitName : String := "it"

def isIdentifier (c : Cursor) : Bool := ["identifier", "simple_identifier"].contains c.kind

def identifier (c : Cursor) : Option Cursor :=
  (c.childByField .name).or (c.namedChildren.find? isIdentifier)

/-- Whether the node is a parameter in the list of a lambda. -/
def isLambdaParameter (c : Cursor) : Bool :=
  lambdaParameterKinds.contains c.kind && c.parent.any (·.kind == "lambda_parameters")

def kind (c : Cursor) : NodeKind :=
  if typeKinds.contains c.kind then .type
  else if methodKinds.contains c.kind then .method
  else if lambdaKinds.contains c.kind then .lambda
  else if ["parameter", "class_parameter"].contains c.kind || isLambdaParameter c then .parameter
  else .other

/-- Whether a lambda has its own implicit parameter: it declares no parameters. -/
def bindsImplicit (c : Cursor) : Bool :=
  c.kind == "lambda_literal" && !c.hasChildOfKind "lambda_parameters"

/-- The first use of `it` from the given nodes down. Lambdas other than `lambda` itself that have
their own `it` are passed over. -/
def findImplicit (source : String) (lambda : Cursor) : List Cursor → Option Cursor
  | [] => none
  | c :: rest =>
    if isIdentifier c && c.text source == implicitName then some c
    else if !c.isAt lambda && bindsImplicit c then findImplicit source lambda rest
    else findImplicit source lambda (Descent.children c ++ rest)
termination_by cs => Descent.totalWeight cs
decreasing_by
  · exact Descent.totalWeight_tail_lt c rest
  · exact Descent.totalWeight_children_lt c rest

def implicitParameter (source : String) (lambda : Cursor) : Option Cursor :=
  findImplicit source lambda [lambda]

def nameNode (c : Cursor) : Option Cursor :=
  if ["object_literal", "lambda_literal", "anonymous_function"].contains c.kind then none
  else identifier c

/-- The declared name of a node that is no constructor. -/
def ownName (source : String) (c : Cursor) : Option String :=
  if c.kind == "companion_object" then
    some (((identifier c).map (·.text source)).getD "Companion")
  else if c.kind == "multi_variable_declaration" then some (typeTextOf source c)
  else if isIdentifier c then some (c.text source)
  else (nameNode c).map (·.text source)

/-- The declared name. A constructor is named as its class. -/
def name (source : String) (c : Cursor) : Option String :=
  if constructorKinds.contains c.kind then
    (c.ancestors.find? fun a => kind a = .type).bind (ownName source)
  else ownName source c

def package (source : String) (c : Cursor) : Option String :=
  if c.kind == "source_file" then do
    let header ← c.childOfKind "package_header"
    let words := Text.dropPrefixes "package".toList (Text.trim (header.text source)).toList
    let declared := Text.canonicalType (String.ofList (Text.dropBack (· == ';') words))
    if declared == "" then none else some declared
  else none

def qualifiedName (source : String) (c : Cursor) : Option String :=
  if kind c = .type && c.kind != "object_literal" then
    qualify kind (name source) (package source) c
  else none

/-- The written modifiers without the annotations. -/
def writtenModifiers (source : String) (c : Cursor) : List String :=
  match c.childOfKind "modifiers" with
  | none => []
  | some m =>
    ((m.children.filter (·.kind != "annotation")).map fun d => Text.trim (d.text source)).filter
      (· ≠ "")

def isConstructor (c : Cursor) : Bool := constructorKinds.contains c.kind

def isInterface (c : Cursor) : Bool :=
  c.kind == "interface_declaration" ||
    (c.kind == "class_declaration" && c.hasChildOfKind "interface")

def isInterfaceMember (c : Cursor) : Bool :=
  ((c.parent.filter (·.kind == "class_body")).bind Cursor.parent).any isInterface

/-- The modifiers. A declaration is public unless it says otherwise, a function without a body in
an interface is abstract, and what is neither open nor declared in an interface is final. -/
def modifiers (source : String) (c : Cursor) : List String :=
  let written := writtenModifiers source c
  if (kind c != .type && kind c != .method) || c.kind == "object_literal" then written
  else
    let visible := if visibilities.any written.contains then written else written ++ ["public"]
    if isConstructor c then visible
    else
      let bodiless := c.kind == "function_declaration" && !c.hasChildOfKind "function_body"
      let declared :=
        if isInterfaceMember c && bodiless then adding "abstract" visible else visible
      if opening.any declared.contains || isInterfaceMember c || isInterface c then declared
      else adding "final" declared

/-- The parameters in the list of a function, each of which may be wrapped. -/
def valueParameters (list : Cursor) : List Cursor :=
  list.namedChildren.filterMap fun d =>
    if d.kind == "parameter" then some d
    else if d.kind == "function_value_parameter" then d.childOfKind "parameter"
    else none

def classParameters (c : Cursor) : List Cursor :=
  ((c.childOfKind "class_parameters").getD c).childrenOfKinds ["class_parameter"]

/-- The parameters of a declaration. A lambda that declares none has the implicit one if it uses
it. -/
def parameters (source : String) (c : Cursor) : List Cursor :=
  match c.kind with
  | "function_declaration" | "secondary_constructor" | "anonymous_function" =>
    match c.childOfKind "function_value_parameters" with
    | none => []
    | some list => valueParameters list
  | "primary_constructor" => classParameters c
  | "lambda_literal" =>
    match c.childOfKind "lambda_parameters" with
    | some list => list.childrenOfKinds lambdaParameterKinds
    | none => (implicitParameter source c).toList
  | _ => []

def writtenType (source : String) (c : Cursor) : Option String :=
  c.afterColon.map (typeTextOf source)

def hasExpressionBody (source : String) (c : Cursor) : Bool :=
  (c.childOfKind "function_body").any fun body =>
    (Text.dropFront Text.isBlank (body.text source).toList).head? == some '='

/-- The type text. A function without a written type returns `Unit`, unless its body is an
expression. The type of a lambda is not written. -/
def typeText (source : String) (c : Cursor) : Option String :=
  match c.kind with
  | "function_declaration" =>
    match writtenType source c with
    | some type => some type
    | none => if hasExpressionBody source c then none else some "Unit"
  | "anonymous_function" => writtenType source c
  | "parameter" | "class_parameter" | "variable_declaration" =>
    some ((writtenType source c).getD unresolvedType)
  | "multi_variable_declaration" => some unresolvedType
  | _ => if isIdentifier c then some unresolvedType else none

end Kotlin

def Dialect.kotlin : Dialect where
  kind := Kotlin.kind
  nameNode := Kotlin.nameNode
  name := Kotlin.name
  qualifiedName := Kotlin.qualifiedName
  modifiers := Kotlin.modifiers
  isConstructor := Kotlin.isConstructor
  isInterface := Kotlin.isInterface
  parameters := Kotlin.parameters
  typeText := Kotlin.typeText

end DeclScribe.Syntax
