import DeclScribe.Node.Descent

/-!
Nodes of source files, as far as descriptions need them. A front end for a language or a symbol
tree makes its nodes available by an instance of `SourceNode`.
-/

namespace DeclScribe

inductive NodeKind where
  /-- A class, interface, object, enum, record or anonymous class. -/
  | type
  /-- A method, function or constructor. -/
  | method
  | lambda
  | parameter
  | other
deriving DecidableEq, Repr

/-- The file that a node belongs to: its name without directories, and the protocol of the file
system that holds it. -/
structure FileOrigin where
  name : String
  protocol : String
deriving DecidableEq, Repr

/-- A node of a source file. -/
class SourceNode (ν : Type) extends Descent ν where
  kind : ν → NodeKind
  /-- The nodes above a node, from its parent to the root. -/
  ancestors : ν → List ν
  name : ν → Option String
  qualifiedName : ν → Option String
  /-- The modifier keywords, written or implied. -/
  modifiers : ν → List String
  isConstructor : ν → Bool
  isInterface : ν → Bool
  parameters : ν → List ν
  /-- The canonical text of the type: what a method returns, what a lambda is, what a parameter is
  declared as. -/
  typeText : ν → Option String
  text : ν → String
  origin : ν → Option FileOrigin
  offset : ν → Nat
  /-- The byte offset to go to: that of the declared name, where there is one. -/
  navigationOffset : ν → Nat

namespace SourceNode

variable {ν : Type} [SourceNode ν]

def parent (n : ν) : Option ν := (ancestors n).head?

/-- The nearest node of the given kind strictly above. -/
def nearest (k : NodeKind) (n : ν) : Option ν := (ancestors n).find? fun a => kind a = k

def containingClass (n : ν) : Option ν := nearest .type n

def containingMethod (n : ν) : Option ν := nearest .method n

def hasModifier (n : ν) (modifier : String) : Bool := (modifiers n).contains modifier

def ofKind? (k : NodeKind) (n : ν) : Option ν := if kind n = k then some n else none

end SourceNode

end DeclScribe
