/-!
JSON values.
-/

namespace DeclScribe.Json

/-- A number: a natural below `2 ^ 64` written without sign, point or exponent, or any other
numeral, kept as it is written. -/
inductive Number where
  | natural (value : Nat)
  | other (numeral : List Char)
deriving DecidableEq, Repr

/-- A JSON value. An object keeps its members in the order in which they are written, repeats
included. -/
inductive Value where
  | null
  | bool (value : Bool)
  | number (value : Number)
  | string (value : String)
  | array (items : List Value)
  | object (members : List (String × Value))
deriving Inhabited, Repr

namespace Value

def nat (n : Nat) : Value := .number (.natural n)

/-- An absent value is `null`. -/
def ofOption (f : α → Value) : Option α → Value
  | none => .null
  | some a => f a

def text? (s : Option String) : Value := ofOption .string s

def texts (xs : List String) : Value := .array (xs.map .string)

def asText? : Value → Option String
  | .string s => some s
  | _ => none

def asNat? : Value → Option Nat
  | .number (.natural n) => some n
  | _ => none

def asBool? : Value → Option Bool
  | .bool b => some b
  | _ => none

def asArray? : Value → Option (List Value)
  | .array items => some items
  | _ => none

/-- The texts of an array that holds nothing else. -/
def asTexts? (v : Value) : Option (List String) :=
  v.asArray?.bind (·.mapM asText?)

/-- An optional text: a string, or nothing where the value is absent or `null`. -/
def asOptionalText? : Option Value → Option (Option String)
  | none | some .null => some none
  | some v => v.asText?.map some

/-- The first member of the given name. -/
def member? (name : String) : Value → Option Value
  | .object members => (members.find? (·.1 == name)).map (·.2)
  | _ => none

end Value

end DeclScribe.Json
