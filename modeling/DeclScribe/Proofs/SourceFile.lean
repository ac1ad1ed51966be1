import DeclScribe.Proofs.Syntax.Nesting
import DeclScribe.SourceFile

/-!
Nodes of source files. A walk from the root of a file goes through nodes of its tree and meets none
of them twice.
-/

namespace DeclScribe

open SourceNode Descent Syntax

namespace SourceFile

/-- The node of a place in the tree of a file. -/
def node (f : SourceFile) (c : Cursor) : FileNode := ⟨f, c⟩

/-- All nodes of a file, unnamed ones too. -/
def nodes (f : SourceFile) : List FileNode := (Cursor.root f.tree).subtree.map f.node

theorem node_injective (f : SourceFile) : Function.Injective f.node := fun _ _ h =>
  congrArg FileNode.cursor h

theorem mem_nodes {f : SourceFile} {c : Cursor} :
    f.node c ∈ f.nodes ↔ c ∈ (Cursor.root f.tree).subtree := by
  simp [nodes, List.mem_map, node]

theorem children_node (f : SourceFile) (c : Cursor) :
    children (f.node c) = (children c).map f.node := rfl

theorem preorder_root (f : SourceFile) :
    preorder f.root = (preorder (Cursor.root f.tree)).map f.node :=
  preorder_map (children_node f) (Cursor.root f.tree)

theorem nodes_eq_walk (f : SourceFile) :
    f.nodes = (Cursor.walk (fun _ => true) f.tree []).map f.node := by
  rw [nodes, Cursor.subtree_eq_walk]
  rfl

theorem preorder_root_eq_walk (f : SourceFile) :
    preorder f.root = (Cursor.walk (fun t => t.label.named) f.tree []).map f.node := by
  rw [preorder_root, Cursor.preorder_eq_named_walk]
  rfl

/-- The nodes of a file lie apart within one another, and the tree within the text. -/
structure WellNested (f : SourceFile) : Prop where
  spaced : ∀ n ∈ f.nodes, n.cursor.Spaced
  within : f.tree.label.stop ≤ f.length

theorem exists_cursor_of_mem_preorder {f : SourceFile} {n : FileNode} (hn : n ∈ preorder f.root) :
    ∃ c ∈ (Cursor.root f.tree).subtree, n = f.node c := by
  rw [preorder_root] at hn
  obtain ⟨c, hc, rfl⟩ := List.mem_map.mp hn
  exact ⟨c, Cursor.mem_subtree_of_mem_preorder hc, rfl⟩

end SourceFile

theorem FileNode.ancestors_of_mem_children {n c : FileNode} (hc : c ∈ children n) :
    ancestors c = n :: ancestors n := by
  obtain ⟨d, hd, rfl⟩ := List.mem_map.mp hc
  have hdn : d ∈ n.cursor.children := (List.mem_filter.mp hd).1
  change d.ancestors.map n.sibling = n :: n.cursor.ancestors.map n.sibling
  rw [Cursor.ancestors_of_mem_children hdn]
  rfl

theorem FileNode.parent_of_mem_children {n c : FileNode} (hc : c ∈ children n) :
    parent c = some n := by
  rw [parent, FileNode.ancestors_of_mem_children hc]
  rfl

theorem FileNode.nodup_children (n : FileNode) : (children n).Nodup :=
  (n.cursor.nodup_children.filter _).map (SourceFile.node_injective n.file)

theorem FileNode.nodup_preorder (n : FileNode) : (preorder n).Nodup :=
  Descent.nodup_preorder parent (fun _ _ _ hc => FileNode.parent_of_mem_children hc)
    (fun m _ => m.nodup_children) n (mem_preorder_self n)

/-- A walk meets what is above a node before it meets the node. -/
theorem FileNode.mem_before_of_mem_ancestors {r n a : FileNode} {before after : List FileNode}
    (h : preorder r = before ++ n :: after) (ha : a ∈ ancestors n) :
    a ∈ before ∨ a ∈ ancestors r := by
  -- on what is met before the node, as the parent has less before it
  induction hlength : before.length using Nat.strongRecOn generalizing before after n with
  | ind k ih =>
    rcases exists_parent_before h with rfl | ⟨p, hp, hnp⟩
    · exact Or.inr ha
    rw [FileNode.ancestors_of_mem_children hnp] at ha
    rcases List.mem_cons.mp ha with rfl | hap
    · exact Or.inl hp
    obtain ⟨early, late, hsplit⟩ := List.append_of_mem hp
    have hparent : preorder r = early ++ p :: (late ++ n :: after) := by
      rw [h, hsplit, List.append_assoc]
      rfl
    have hlt : early.length < k := by
      rw [← hlength, hsplit, List.length_append, List.length_cons]
      omega
    rcases ih _ hlt hparent hap rfl with hmem | hmem
    · exact Or.inl (hsplit ▸ List.mem_append_left _ hmem)
    · exact Or.inr hmem

end DeclScribe
