import DeclScribe.Proofs.Node.OutlineWalk

/-!
Growing outlines. A new node goes behind the children of its parent; all other nodes keep their
children and what is above them, and a walk down meets the new node behind all that was below its
parent.
-/

namespace DeclScribe

open SourceNode Descent

/-- The kind of the node that an edit adds, where it adds one. -/
def OutlineEdit.addedKind : OutlineEdit → Option NodeKind
  | add _ kind => some kind
  | addClass _ _ _ => some .type
  | addMethod _ _ _ => some .method
  | addLambda _ _ => some .lambda
  | addParameter _ _ _ => some .parameter
  | setModifiers _ _ | setText _ _ | markConstructor _ | markInterface _ => none

namespace Outline

/-- The node that stands in the same place in another outline. -/
def counterpart (t : Outline) (n : OutlineNode) : OutlineNode := t.node n.index

theorem apply_of_addedKind (t : Outline) {e : OutlineEdit} {k : NodeKind}
    (h : e.addedKind = some k) :
    ∃ entry : OutlineEntry, entry.kind = k ∧ entry.children = [] ∧
      t.apply e = t.insert e.target entry := by
  cases e with
  | add | addClass | addMethod | addLambda | addParameter =>
    cases h
    exact ⟨_, rfl, rfl, rfl⟩
  | setModifiers | setText | markConstructor | markInterface => cases h

/-- An old node keeps all that is recorded of it but its children. -/
theorem exists_entry_insert {t : Outline} {p i : Nat} (entry : OutlineEntry) (hi : i < t.size) :
    ∃ cs, ((t.insert p entry).node i).entry = { (t.node i).entry with children := cs } := by
  rw [entry_insert t p i entry hi]
  split
  · exact ⟨_, rfl⟩
  · exact ⟨_, rfl⟩

theorem kind_insert {t : Outline} {p i : Nat} (entry : OutlineEntry) (hi : i < t.size) :
    kind ((t.insert p entry).node i) = kind (t.node i) := by
  obtain ⟨cs, hcs⟩ := exists_entry_insert (p := p) entry hi
  have hkind := congrArg OutlineEntry.kind hcs
  exact hkind

theorem kind_insert_new (t : Outline) (p : Nat) (entry : OutlineEntry) :
    kind ((t.insert p entry).node t.size) = entry.kind := by
  have hkind := congrArg OutlineEntry.kind (entry_insert_new t p entry)
  exact hkind

namespace IsTree

variable {t : Outline} (ht : t.IsTree) {p : Nat} (hp : p < t.size) {entry : OutlineEntry}
  (hentry : entry.children = [])
include ht

theorem lt_size_of_mem_ancestors {i : Nat} (hi : i < t.size) {n : OutlineNode}
    (hn : n ∈ ancestors (t.node i)) : ∃ a, a < t.size ∧ n = t.node a := by
  obtain ⟨a, ha, rfl⟩ := (ht.mem_ancestors_iff hi).mp hn
  exact ⟨a, Nat.lt_trans (ht.lt_of_above hi ha) hi, rfl⟩

theorem lt_size_of_mem_children {i : Nat} (hi : i < t.size) {n : OutlineNode}
    (hn : n ∈ children (t.node i)) : ∃ c, c < t.size ∧ n = t.node c := by
  rw [ht.children_node] at hn
  obtain ⟨c, hc, rfl⟩ := List.mem_map.mp hn
  exact ⟨c, (ht.lt_of_mem_children hi hc).2, rfl⟩

include hp hentry

theorem ancestors_insert {i : Nat} (hi : i < t.size) :
    ancestors ((t.insert p entry).node i) =
      (ancestors (t.node i)).map (t.insert p entry).counterpart := by
  have hgrown := isTree_insert ht hp entry hentry
  -- from older to younger nodes, as parents are older
  induction i using Nat.strongRecOn with
  | ind i ih =>
    have hi' : i < (t.insert p entry).size := by
      rw [size_insert]
      omega
    have hparent : ((t.insert p entry).node i).entry.parent = (t.node i).entry.parent := by
      obtain ⟨cs, hcs⟩ := exists_entry_insert (p := p) entry hi
      rw [hcs]
    rw [hgrown.ancestors_node hi', ht.ancestors_node hi, hparent]
    cases hq : (t.node i).entry.parent with
    | none => rfl
    | some q =>
      have hqi : q < i := ht.parent_lt_self hi hq
      have habove := ih q hqi (Nat.lt_trans hqi hi)
      exact congrArg _ habove

/-- Above the new node are its parent and what is above that. -/
theorem ancestors_insert_new : ancestors ((t.insert p entry).node t.size) =
    (t.node p :: ancestors (t.node p)).map (t.insert p entry).counterpart := by
  have hgrown := isTree_insert ht hp entry hentry
  have hnew : t.size < (t.insert p entry).size := by
    rw [size_insert]
    omega
  rw [hgrown.ancestors_node hnew, entry_insert_new, List.map_cons,
    ← ht.ancestors_insert hp hentry hp]
  rfl

theorem children_insert {i : Nat} (hi : i < t.size) :
    children ((t.insert p entry).node i) =
      (children (t.node i)).map (t.insert p entry).counterpart ++
        if i = p then [(t.insert p entry).node t.size] else [] := by
  have hgrown := isTree_insert ht hp entry hentry
  rw [hgrown.children_node, ht.children_node, entry_insert t p i entry hi, List.map_map]
  split
  · exact List.map_append
  · exact (List.append_nil _).symm

theorem children_insert_new : children ((t.insert p entry).node t.size) = [] := by
  have hgrown := isTree_insert ht hp entry hentry
  rw [hgrown.children_node, entry_insert_new, hentry]
  rfl

theorem parameters_insert {i : Nat} (hi : i < t.size) :
    parameters ((t.insert p entry).node i) =
      (parameters (t.node i)).map (t.insert p entry).counterpart ++
        if i = p ∧ entry.kind = .parameter then [(t.insert p entry).node t.size] else [] := by
  have hparameters (n : OutlineNode) :
      parameters n = (children n).filter fun c => kind c = .parameter := rfl
  have hold : ∀ c ∈ children (t.node i), kind ((t.insert p entry).counterpart c) = kind c := by
    intro c hc
    obtain ⟨j, hj, rfl⟩ := ht.lt_size_of_mem_children hi hc
    exact kind_insert entry hj
  have hnew := kind_insert_new t p entry
  rw [hparameters, hparameters, ht.children_insert hp hentry hi, List.filter_append,
    List.filter_map]
  refine congrArg₂ _ (congrArg _ (List.filter_congr ?_)) ?_
  · intro c hc
    rw [Function.comp_apply, hold c hc]
  · by_cases hip : i = p
    · by_cases hkind : entry.kind = .parameter
      · simp [hip, hkind, hnew]
      · simp [hip, hkind, hnew]
    · simp [hip]

/-- A walk down meets the new node right behind all that was below its parent. -/
theorem preorder_insert : ∃ before after,
    preorder (t.node 0) = before ++ preorder (t.node p) ++ after ∧
      preorder ((t.insert p entry).node 0) =
        (before ++ preorder (t.node p)).map (t.insert p entry).counterpart ++
          (t.insert p entry).node t.size :: after.map (t.insert p entry).counterpart := by
  have hmem : t.node p ∈ preorder (t.node 0) := ht.mem_preorder_root_iff.mpr ⟨p, hp, rfl⟩
  have hleaf := ht.children_insert hp hentry hp
  rw [if_pos rfl] at hleaf
  -- the new node is a leaf, and no node but its parent has other children than before
  refine preorder_graft (f := (t.insert p entry).counterpart) hmem (ht.nodup_preorder 0)
    (ht.children_insert_new hp hentry) hleaf ?_
  intro n hn hne
  obtain ⟨i, hi, rfl⟩ := ht.mem_preorder_root_iff.mp hn
  have hip : i ≠ p := fun h => hne (congrArg t.node h)
  have hchildren := ht.children_insert hp hentry hi
  rw [if_neg hip, List.append_nil] at hchildren
  exact hchildren

end IsTree

end Outline

end DeclScribe
