import DeclScribe.Description.Basic
import DeclScribe.Node.Basic
import DeclScribe.Settings.Attributes

/-!
Describing nodes. The functions hold for the nodes of every front end.
-/

namespace DeclScribe

/-- Why a node has no description. -/
inductive DescribeError where
  | noEnclosingMethod (offset : Nat)
deriving DecidableEq, Repr

def DescribeError.message : DescribeError → String
  | noEnclosingMethod offset =>
    "lambda at offset " ++ toString offset ++ " has no enclosing method"

namespace Describe

open SourceNode

variable {ν : Type} [SourceNode ν] (settings : AttributeSettings)

/-- Whether a class comes from a compiled file or from an archive. -/
def isExternal (c : Option ν) : Bool :=
  match c.bind origin with
  | none => false
  | some o => settings.isCompiledFile o.name || settings.isArchiveProtocol o.protocol

def isInterfaceDeclaration (c : Option ν) : Bool := c.any isInterface

/-- The class whose labels a node shows: the node itself if it is a class, else the one around
it. -/
def labelledClass (n : ν) : Option ν :=
  if kind n = .type then some n else containingClass n

def labels (c : Option ν) : List String :=
  (if isExternal settings c then [settings.externalLabel] else []) ++
    if isInterfaceDeclaration c then [settings.interfaceLabel] else []

/-- The attributes of a node: the recognized keywords among its modifiers, in the order of the
settings, then the labels of its class. -/
def attributes (n : ν) : List String :=
  settings.recognized.filter (hasModifier n) ++ labels settings (labelledClass n)

/-- The names and types of parameters. What is unknown is left empty. -/
def parameterPairs (ps : List ν) : Parameters :=
  .ofPairs (ps.map fun p => ((name p).getD "", (typeText p).getD ""))

def describeClass (c : ν) : ClassDescription := ⟨qualifiedName c, attributes settings c⟩

def describeMethod (m : ν) (offset : Nat) : Description :=
  let owner := (containingClass m).map (describeClass settings)
  let pairs := parameterPairs (parameters m)
  if isConstructor m then .constructor owner (attributes settings m) pairs offset
  else .method owner (attributes settings m) ((name m).getD "") (typeText m) pairs offset (text m)

/-- The description of a lambda, recorded at the given offset together with its enclosing
method. -/
def describeLambda (l : ν) (offset : Nat) : Except DescribeError Description :=
  match containingMethod l with
  | none => .error (.noEnclosingMethod offset)
  | some m =>
    .ok (.lambda (describeMethod settings m offset) (typeText l) (parameterPairs (parameters l))
      offset)

/-- The description of a node, if it is a method or a lambda. -/
def describe (n : ν) (offset : Nat) : Except DescribeError (Option Description) :=
  match kind n with
  | .method => .ok (some (describeMethod settings n offset))
  | .lambda => (describeLambda settings n offset).map some
  | _ => .ok none

/-- The description of a node, recorded where an editor goes to. -/
def describeHere (n : ν) : Except DescribeError (Option Description) :=
  describe settings n (navigationOffset n)

/-- The descriptions of all methods and lambdas from the given nodes down, or the error of the
first node that has none. -/
def describeEach : List ν → Except DescribeError (List Description)
  | [] => .ok []
  | n :: rest =>
    match describeHere settings n with
    | .error e => .error e
    | .ok here => (describeEach (Descent.children n ++ rest)).map (here.toList ++ ·)
termination_by ns => Descent.totalWeight ns
decreasing_by exact Descent.totalWeight_children_lt n rest

def describeAll (n : ν) : Except DescribeError (List Description) := describeEach settings [n]

/-- The descriptions of all methods and lambdas from the given nodes down, without those that
cannot be described. -/
def listEach : List ν → List Description
  | [] => []
  | n :: rest =>
    match describeHere settings n with
    | .ok (some d) => d :: listEach (Descent.children n ++ rest)
    | _ => listEach (Descent.children n ++ rest)
termination_by ns => Descent.totalWeight ns
decreasing_by all_goals exact Descent.totalWeight_children_lt n rest

/-- The descriptions from a node down, without the lambdas that no method encloses. -/
def listAll (n : ν) : List Description := listEach settings [n]

end Describe

end DeclScribe
