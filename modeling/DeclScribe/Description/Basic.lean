/-!
Descriptions of methods, constructors and lambdas.
-/

namespace DeclScribe

/-- The class or interface that declares a method. Anonymous and local classes have no qualified
name. -/
structure ClassDescription where
  qualifiedName : Option String
  attributes : List String
deriving DecidableEq, Repr

/-- What follows the last dot of a name. -/
def lastSegment (name : String) : String :=
  String.ofList (name.toList.reverse.takeWhile (· ≠ '.')).reverse

def ClassDescription.simpleName (c : ClassDescription) : Option String :=
  c.qualifiedName.map lastSegment

/-- The names and the types of a declaration's parameters, both in declaration order. -/
structure Parameters where
  names : List String
  types : List String
deriving DecidableEq, Repr

namespace Parameters

def ofPairs (pairs : List (String × String)) : Parameters :=
  ⟨pairs.map (·.1), pairs.map (·.2)⟩

/-- Whether every name has a type and every type a name. -/
def isPaired (p : Parameters) : Bool := p.names.length == p.types.length

theorem isPaired_ofPairs (pairs : List (String × String)) : (ofPairs pairs).isPaired := by
  simp [isPaired, ofPairs]

end Parameters

/-- What is known of a method, a constructor or a lambda. A constructor has neither name, return
type nor text; a lambda comes with the description of what encloses it. -/
inductive Description where
  | method (owner : Option ClassDescription) (attributes : List String) (name : String)
      (returnType : Option String) (parameters : Parameters) (offset : Nat) (text : String)
  | constructor (owner : Option ClassDescription) (attributes : List String)
      (parameters : Parameters) (offset : Nat)
  | lambda (enclosing : Description) (returnType : Option String) (parameters : Parameters)
      (offset : Nat)
deriving DecidableEq, Repr

namespace Description

/-- The declaring class. A lambda has that of its enclosing declaration. -/
def owner : Description → Option ClassDescription
  | method c .. | constructor c .. => c
  | lambda enclosing .. => enclosing.owner

/-- The attributes of the declaration itself. A lambda has none. -/
def attributes : Description → List String
  | method _ as .. | constructor _ as .. => as
  | lambda .. => []

def name : Description → Option String
  | method _ _ n .. => some n
  | constructor .. | lambda .. => none

def returnType : Description → Option String
  | method _ _ _ t .. | lambda _ t .. => t
  | constructor .. => none

def parameters : Description → Parameters
  | method _ _ _ _ p .. | constructor _ _ p _ | lambda _ _ p _ => p

def offset : Description → Nat
  | method _ _ _ _ _ o _ | constructor _ _ _ o | lambda _ _ _ o => o

def text : Description → Option String
  | method _ _ _ _ _ _ t => some t
  | constructor .. | lambda .. => none

def enclosing : Description → Option Description
  | lambda d .. => some d
  | method .. | constructor .. => none

def isConstructor : Description → Bool
  | constructor .. => true
  | method .. | lambda .. => false

def isLambda : Description → Bool
  | lambda .. => true
  | method .. | constructor .. => false

/-- The title: `Class.method`, where a constructor is named as its class and a lambda adds
`$lambda` to the title of what encloses it. Without a class name only the method part is left. -/
def title : Description → String
  | method c _ n .. =>
    match c.bind ClassDescription.simpleName with
    | some s => s ++ "." ++ n
    | none => n
  | constructor c .. =>
    match c.bind ClassDescription.simpleName with
    | some s => s ++ "." ++ s
    | none => "<init>"
  | lambda d .. => d.title ++ "$lambda"

/-- Whether names and types pair up, at every level. -/
def isWellFormed : Description → Bool
  | method _ _ _ _ p .. | constructor _ _ p _ => p.isPaired
  | lambda d _ p _ => p.isPaired && d.isWellFormed

end Description

end DeclScribe
