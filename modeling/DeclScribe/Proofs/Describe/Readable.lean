import DeclScribe.Caret
import DeclScribe.Proofs.Caret.Navigation
import DeclScribe.Proofs.Describe.Walk
import DeclScribe.Proofs.Description.Lines

/-!
Descriptions that describing makes. Whatever is described has names and types that pair up, and a
lambda encloses a method and no further lambda, so what is written of it is read again.
-/

namespace DeclScribe

open SourceNode Describe

namespace Describe

variable {ν : Type} [SourceNode ν] (settings : AttributeSettings)

theorem levels_describeMethod (m : ν) (offset : Nat) :
    (describeMethod settings m offset).levels = [describeMethod settings m offset] := by
  unfold describeMethod
  split <;> rfl

theorem parameters_describeMethod (m : ν) (offset : Nat) :
    (describeMethod settings m offset).parameters = parameterPairs (parameters m) := by
  unfold describeMethod
  split <;> rfl

/-- A description has at most two levels: a lambda, and a method or constructor. -/
theorem levels_of_describe {n : ν} {offset : Nat} {d : Description}
    (h : describe settings n offset = .ok (some d)) :
    d.levels.length ≤ 2 ∧ ∀ e ∈ d.levels, e.offset = offset ∧
      ∃ ps : List ν, e.parameters = parameterPairs ps := by
  have hmethod (m : ν) : ∀ e ∈ (describeMethod settings m offset).levels, e.offset = offset ∧
      ∃ ps : List ν, e.parameters = parameterPairs ps := by
    rw [levels_describeMethod, List.forall_mem_singleton]
    exact ⟨offset_describeMethod settings m offset, _, parameters_describeMethod settings m offset⟩
  rcases (describe_eq_some_iff settings).mp h with ⟨-, rfl⟩ | ⟨-, m, -, rfl⟩
  · exact ⟨by simp [levels_describeMethod], hmethod n⟩
  · rw [Description.levels_lambda, levels_describeMethod]
    refine ⟨Nat.le_refl 2, ?_⟩
    rw [← levels_describeMethod, List.forall_mem_cons]
    exact ⟨⟨rfl, _, rfl⟩, hmethod m⟩

theorem depth_le_of_describe {n : ν} {offset : Nat} {d : Description}
    (h : describe settings n offset = .ok (some d)) : d.toJson.depth ≤ 4 := by
  have hlength := (levels_of_describe settings h).1
  rw [Description.depth_toJson]
  split <;> omega

theorem paired_of_describe {n : ν} {offset : Nat} {d : Description}
    (h : describe settings n offset = .ok (some d)) :
    ∀ e ∈ d.levels, e.parameters.names.length = e.parameters.types.length := by
  intro e he
  -- names and types are the two sides of one list of pairs
  obtain ⟨ps, hps⟩ := ((levels_of_describe settings h).2 e he).2
  rw [hps]
  simp [parameterPairs, Parameters.ofPairs]

theorem readable_of_describe {n : ν} {offset : Nat} {d : Description}
    (hoffset : offset < Json.wordLimit) (h : describe settings n offset = .ok (some d)) :
    d.Readable := by
  constructor
  · exact paired_of_describe settings h
  · intro e he
    rw [((levels_of_describe settings h).2 e he).1]
    exact hoffset
  · have hdepth := depth_le_of_describe settings h
    omega

end Describe

namespace SourceFile

/-- The nodes of a file start at offsets that fit a word. -/
def Addressable (f : SourceFile) : Prop := ∀ n ∈ f.nodes, n.cursor.start < Json.wordLimit

theorem Addressable.withProtocol {f : SourceFile} (hf : f.Addressable) (protocol : String) :
    SourceFile.Addressable { f with protocol } := by
  intro n hn
  obtain ⟨c, hc, rfl⟩ := List.mem_map.mp hn
  exact hf (f.node c) (mem_nodes.mpr hc)

theorem Addressable.navigationOffset_lt {f : SourceFile} (hf : f.Addressable) {c : Syntax.Cursor}
    (hc : c ∈ (Syntax.Cursor.root f.tree).subtree) (hdecl : IsDeclaration (f.node c)) :
    navigationOffset (f.node c) < Json.wordLimit := by
  change (((f.node c).dialect.nameNode c).map Syntax.Cursor.start).getD c.start < Json.wordLimit
  cases hname : (f.node c).dialect.nameNode c with
  | none => exact hf (f.node c) (mem_nodes.mpr hc)
  | some m =>
    have hchild : m ∈ c.children := FileNode.nameNode_mem_children (n := f.node c) hdecl hname
    have hm : m ∈ (Syntax.Cursor.root f.tree).subtree :=
      Syntax.Cursor.mem_subtree_trans hc (Syntax.Cursor.mem_subtree_of_mem_children hchild)
    exact hf (f.node m) (mem_nodes.mpr hm)

theorem exists_of_mem_descriptions {settings : AttributeSettings} {f : SourceFile} {d : Description}
    (hd : d ∈ f.descriptions settings) :
    ∃ c ∈ (Syntax.Cursor.root f.tree).subtree, IsDeclaration (f.node c) ∧
      describe settings (f.node c) (navigationOffset (f.node c)) = .ok (some d) := by
  obtain ⟨n, hn, hhere⟩ := (mem_listAll settings).mp hd
  obtain ⟨c, hc, rfl⟩ := exists_cursor_of_mem_preorder hn
  have hrecord := (record?_eq_some_iff settings).mpr hhere
  exact ⟨c, hc, (isDeclaration_and_enclosed_of_record? settings hrecord).1, hhere⟩

end SourceFile

end DeclScribe
