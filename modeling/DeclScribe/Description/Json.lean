import DeclScribe.Description.Basic
import DeclScribe.Json.Record

/-!
Descriptions as JSON records, tagged by `kind`.
-/

namespace DeclScribe

open Json

def ClassDescription.toJson (c : ClassDescription) : Value :=
  .object [("qualified_name", .text? c.qualifiedName), ("attributes", .texts c.attributes)]

/-- The class description that a record spells. The qualified name may be left out. -/
def ClassDescription.ofJson? (v : Value) : Option ClassDescription :=
  match v.fields? ["qualified_name", "attributes"] with
  | some [name, some attributes] => do
    return ⟨← Value.asOptionalText? name, ← attributes.asTexts?⟩
  | _ => none

def ClassDescription.ofField? : Option Value → Option (Option ClassDescription)
  | none | some .null => some none
  | some v => (ClassDescription.ofJson? v).map some

def Parameters.ofFields? (names types : Value) : Option Parameters := do
  return ⟨← names.asTexts?, ← types.asTexts?⟩

inductive Description.Kind where
  | method
  | constructor
  | lambda
deriving DecidableEq, Repr

namespace Description

def Kind.ofName? : String → Option Kind
  | "method" => some .method
  | "constructor" => some .constructor
  | "lambda" => some .lambda
  | _ => none

/-- The kind that a tag tells: by its name or, in an enclosing record, also by its place among
the kinds. -/
def Kind.ofTag? (isEnclosing : Bool) : Value → Option Kind
  | .string name => Kind.ofName? name
  | .number (.natural n) => if isEnclosing then [method, constructor, lambda][n]? else none
  | _ => none

def Kind.fields : Kind → List String
  | method =>
    ["class", "attributes", "name", "return_type", "arg_names", "arg_types", "offset", "text"]
  | constructor => ["class", "attributes", "arg_names", "arg_types", "offset"]
  | lambda => ["enclosing", "return_type", "arg_names", "arg_types", "offset"]

def toJson : Description → Value
  | method owner attributes name returnType parameters offset text =>
    .object [("kind", .string "method"), ("class", .ofOption ClassDescription.toJson owner),
      ("attributes", .texts attributes), ("name", .string name),
      ("return_type", .text? returnType), ("arg_names", .texts parameters.names),
      ("arg_types", .texts parameters.types), ("offset", .nat offset), ("text", .string text)]
  | constructor owner attributes parameters offset =>
    .object [("kind", .string "constructor"),
      ("class", .ofOption ClassDescription.toJson owner), ("attributes", .texts attributes),
      ("arg_names", .texts parameters.names), ("arg_types", .texts parameters.types),
      ("offset", .nat offset)]
  | lambda enclosing returnType parameters offset =>
    .object [("kind", .string "lambda"), ("enclosing", enclosing.toJson),
      ("return_type", .text? returnType), ("arg_names", .texts parameters.names),
      ("arg_types", .texts parameters.types), ("offset", .nat offset)]

def methodOfFields? : List (Option Value) → Option Description
  | [owner, some attributes, some name, returnType, some argNames, some argTypes, some offset,
      some text] => do
    return method (← ClassDescription.ofField? owner) (← attributes.asTexts?) (← name.asText?)
      (← Value.asOptionalText? returnType) (← Parameters.ofFields? argNames argTypes)
      (← offset.asNat?) (← text.asText?)
  | _ => none

def constructorOfFields? : List (Option Value) → Option Description
  | [owner, some attributes, some argNames, some argTypes, some offset] => do
    return constructor (← ClassDescription.ofField? owner) (← attributes.asTexts?)
      (← Parameters.ofFields? argNames argTypes) (← offset.asNat?)
  | _ => none

/-- The description that a record spells. -/
def ofJson? (isEnclosing : Bool) (v : Value) : Option Description :=
  match _htag : v.tagged? "kind" with
  | none => none
  | some (tag, record) =>
    match Kind.ofTag? isEnclosing tag with
    | none => none
    | some .method => (record.fields? Kind.method.fields).bind methodOfFields?
    | some .constructor => (record.fields? Kind.constructor.fields).bind constructorOfFields?
    | some .lambda =>
      match _hfields : record.fields? Kind.lambda.fields with
      | some [some enclosing, returnType, some argNames, some argTypes, some offset] => do
        return lambda (← ofJson? true enclosing) (← Value.asOptionalText? returnType)
          (← Parameters.ofFields? argNames argTypes) (← offset.asNat?)
      | _ => none
termination_by sizeOf v
decreasing_by
  have h₁ := Value.sizeOf_le_of_tagged? _htag
  have h₂ := Value.sizeOf_lt_of_fields? (v := enclosing) _hfields (by simp)
  omega

end Description

end DeclScribe
