import DeclScribe.Describe
import DeclScribe.SourceFile

/-!
From the byte offset of a caret to declarations.
-/

namespace DeclScribe.SourceFile

open SourceNode

/-- The smallest node at an offset. Offsets up to the length of the source have one. -/
def nodeAt (f : SourceFile) (offset : Nat) : Option FileNode :=
  if offset ≤ f.length then some ⟨f, Syntax.Cursor.smallestAt offset (.root f.tree)⟩ else none

/-- The nearest of a node and the nodes above it that is of one of the kinds. -/
def innermost (kinds : List NodeKind) (n : FileNode) : Option FileNode :=
  (n :: ancestors n).find? fun a => kinds.contains (kind a)

/-- The innermost method or lambda at an offset. -/
def declarationAt (f : SourceFile) (offset : Nat) : Option FileNode :=
  (f.nodeAt offset).bind (innermost [.method, .lambda])

def methodAt (f : SourceFile) (offset : Nat) : Option FileNode :=
  (f.nodeAt offset).bind (innermost [.method])

def describeAt (settings : AttributeSettings) (f : SourceFile) (offset : Nat) :
    Except DescribeError (Option Description) :=
  match f.declarationAt offset with
  | none => .ok none
  | some n => Describe.describeHere settings n

/-- The descriptions of all methods and lambdas of the file, in source order. -/
def descriptions (settings : AttributeSettings) (f : SourceFile) : List Description :=
  Describe.listAll settings f.root

end DeclScribe.SourceFile
