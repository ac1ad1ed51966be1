import DeclScribe.Language
import DeclScribe.Syntax.Java
import DeclScribe.Syntax.Kotlin

/-!
Source files: a text, its syntax tree and where it comes from. The nodes of the tree are source
nodes.
-/

namespace DeclScribe

open Syntax

def Language.dialect : Language → Dialect
  | java => .java
  | kotlin => .kotlin

/-- A parsed source file. The path only tells the name of the file. -/
structure SourceFile where
  path : String
  source : String
  language : Language
  tree : Tree
  protocol : String := "file"
deriving Repr

namespace SourceFile

def origin (f : SourceFile) : FileOrigin := ⟨(Path.fileName f.path).getD "", f.protocol⟩

def length (f : SourceFile) : Nat := f.source.utf8ByteSize

end SourceFile

structure FileNode where
  file : SourceFile
  cursor : Cursor
deriving Repr

namespace FileNode

def sibling (n : FileNode) (cursor : Cursor) : FileNode := ⟨n.file, cursor⟩

def dialect (n : FileNode) : Dialect := n.file.language.dialect

instance : SourceNode FileNode where
  children n := n.cursor.namedChildren.map n.sibling
  wellFounded := by
    refine Subrelation.wf (fun {c n} h => ?_)
      (InvImage.wf (fun n : FileNode => sizeOf n.cursor.focus) Nat.lt_wfRel.wf)
    obtain ⟨d, hd, rfl⟩ := List.mem_map.mp h
    exact Cursor.sizeOf_focus_lt (List.mem_filter.mp hd).1
  kind n := n.dialect.kind n.cursor
  ancestors n := n.cursor.ancestors.map n.sibling
  name n := n.dialect.name n.file.source n.cursor
  qualifiedName n := n.dialect.qualifiedName n.file.source n.cursor
  modifiers n := n.dialect.modifiers n.file.source n.cursor
  isConstructor n := n.dialect.isConstructor n.cursor
  isInterface n := n.dialect.isInterface n.cursor
  parameters n := (n.dialect.parameters n.file.source n.cursor).map n.sibling
  typeText n := n.dialect.typeText n.file.source n.cursor
  text n := n.cursor.text n.file.source
  origin n := some n.file.origin
  offset n := n.cursor.start
  navigationOffset n := ((n.dialect.nameNode n.cursor).map Cursor.start).getD n.cursor.start

end FileNode

namespace SourceFile

def root (f : SourceFile) : FileNode := ⟨f, .root f.tree⟩

end SourceFile

end DeclScribe
