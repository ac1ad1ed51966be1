import DeclScribe.Node.Outline
import DeclScribe.Proofs.Node.Preorder

/-!
Outlines are trees. Whatever edits make an outline, every node but the first has one older parent,
and the children of a node are the nodes whose parent it is. So a walk down meets every child that
is recorded, and a walk up every parent.
-/

namespace DeclScribe

namespace Outline

/-- The outlines that edits of existing nodes make. -/
inductive Reachable : Outline → Prop where
  | empty (origin : Option FileOrigin) : Reachable (empty origin)
  | apply {t : Outline} {e : OutlineEdit} (ht : Reachable t) (he : e.target < t.size) :
    Reachable (t.apply e)

/-- The node of a place. -/
def node (t : Outline) (i : Nat) : OutlineNode := ⟨t, i⟩

structure IsTree (t : Outline) : Prop where
  size_pos : 0 < t.size
  root_parent : (t.node 0).entry.parent = none
  parent_lt : ∀ i, 0 < i → i < t.size → ∃ p, p < i ∧ (t.node i).entry.parent = some p
  children_eq : ∀ i, i < t.size → (t.node i).entry.children =
    (List.range t.size).filter fun c => (t.node c).entry.parent = some i

section Edits

theorem size_modify (t : Outline) (k : Nat) (f : OutlineEntry → OutlineEntry) :
    (t.modify k f).size = t.size := by
  simp [modify, size]

theorem size_insert (t : Outline) (p : Nat) (entry : OutlineEntry) :
    (t.insert p entry).size = t.size + 1 := by
  simp [insert, modify, size]

theorem entry_modify (t : Outline) (k i : Nat) (f : OutlineEntry → OutlineEntry)
    (hi : i < t.size) : ((t.modify k f).node i).entry =
      if i = k then f (t.node i).entry else (t.node i).entry := by
  have hi' : i < t.entries.length := hi
  by_cases hik : i = k
  · subst hik
    simp [modify, node, OutlineNode.entry, List.getD_eq_getElem?_getD, hi']
  · simp [modify, node, OutlineNode.entry, List.getD_eq_getElem?_getD, hik, Ne.symm hik]

theorem entry_insert (t : Outline) (p i : Nat) (entry : OutlineEntry) (hi : i < t.size) :
    ((t.insert p entry).node i).entry =
      if i = p then
        { (t.node i).entry with children := (t.node i).entry.children ++ [t.size] }
      else (t.node i).entry := by
  rw [← entry_modify t p i (fun e => { e with children := e.children ++ [t.size] }) hi]
  have hi' : i < (t.modify p fun e => { e with children := e.children ++ [t.size] }).size := by
    rwa [size_modify]
  simp only [insert, node, OutlineNode.entry, List.getD_eq_getElem?_getD]
  rw [List.getElem?_append_left hi']

theorem entry_insert_new (t : Outline) (p : Nat) (entry : OutlineEntry) :
    ((t.insert p entry).node t.size).entry = { entry with parent := some p } := by
  have hlen : (t.modify p fun e => { e with children := e.children ++ [t.size] }).entries.length =
      t.size := size_modify t p _
  simp only [insert, node, OutlineNode.entry, List.getD_eq_getElem?_getD]
  rw [List.getElem?_append_right (Nat.le_of_eq hlen), hlen]
  simp

/-- An edit puts a new node under the one that it names, or changes that one without moving it. -/
theorem apply_cases (t : Outline) (e : OutlineEdit) :
    (∃ entry : OutlineEntry, entry.children = [] ∧ t.apply e = t.insert e.target entry) ∨
      ∃ f : OutlineEntry → OutlineEntry,
        (∀ x, (f x).parent = x.parent ∧ (f x).children = x.children) ∧
          t.apply e = t.modify e.target f := by
  cases e with
  | add | addClass | addMethod | addLambda | addParameter => exact Or.inl ⟨_, rfl, rfl⟩
  | setModifiers | setText | markConstructor | markInterface =>
    refine Or.inr ⟨_, ?_, rfl⟩
    exact fun _ => ⟨rfl, rfl⟩

end Edits

theorem isTree_empty (origin : Option FileOrigin) : (empty origin).IsTree where
  size_pos := Nat.one_pos
  root_parent := rfl
  parent_lt := by
    intro i hi hlt
    have : i < 1 := hlt
    omega
  children_eq := by
    intro i hi
    have : i = 0 := Nat.lt_one_iff.mp hi
    subst this
    rfl

theorem isTree_modify {t : Outline} (ht : t.IsTree) (k : Nat) (f : OutlineEntry → OutlineEntry)
    (hf : ∀ x, (f x).parent = x.parent ∧ (f x).children = x.children) : (t.modify k f).IsTree := by
  have hentry : ∀ i, i < t.size →
      ((t.modify k f).node i).entry.parent = (t.node i).entry.parent ∧
        ((t.modify k f).node i).entry.children = (t.node i).entry.children := by
    intro i hi
    rw [entry_modify t k i f hi]
    split
    · exact hf _
    · exact ⟨rfl, rfl⟩
  refine ⟨?_, ?_, ?_, ?_⟩
  · rw [size_modify]
    exact ht.size_pos
  · rw [(hentry 0 ht.size_pos).1]
    exact ht.root_parent
  · intro i hi hlt
    rw [size_modify] at hlt
    rw [(hentry i hlt).1]
    exact ht.parent_lt i hi hlt
  · intro i hi
    rw [size_modify] at hi ⊢
    rw [(hentry i hi).2, ht.children_eq i hi]
    refine List.filter_congr fun c hc => ?_
    rw [(hentry c (List.mem_range.mp hc)).1]

theorem isTree_insert {t : Outline} (ht : t.IsTree) {p : Nat} (hp : p < t.size)
    (entry : OutlineEntry) (hentry : entry.children = []) : (t.insert p entry).IsTree := by
  have hparent : ∀ i, i < t.size →
      ((t.insert p entry).node i).entry.parent = (t.node i).entry.parent := by
    intro i hi
    rw [entry_insert t p i entry hi]
    split <;> rfl
  have hnew : ((t.insert p entry).node t.size).entry.parent = some p := by
    rw [entry_insert_new]
  -- the old nodes with a given parent, and the new node if that is its parent
  have hrange : ∀ i, ((List.range (t.size + 1)).filter fun c =>
      ((t.insert p entry).node c).entry.parent = some i) =
        ((List.range t.size).filter fun c => (t.node c).entry.parent = some i) ++
          if i = p then [t.size] else [] := by
    intro i
    rw [List.range_succ, List.filter_append]
    refine congrArg₂ _ (List.filter_congr fun c hc => ?_) ?_
    · rw [hparent c (List.mem_range.mp hc)]
    · by_cases hip : i = p
      · simp [hnew, hip]
      · simp [hnew, hip, Ne.symm hip]
  refine ⟨?_, ?_, ?_, ?_⟩
  · rw [size_insert]
    exact Nat.succ_pos _
  · rw [hparent 0 ht.size_pos]
    exact ht.root_parent
  · intro i hi hlt
    rw [size_insert] at hlt
    rcases Nat.lt_or_eq_of_le (Nat.le_of_lt_succ hlt) with hlt | rfl
    · rw [hparent i hlt]
      exact ht.parent_lt i hi hlt
    · exact ⟨p, hp, hnew⟩
  · intro i hi
    rw [size_insert] at hi ⊢
    rw [hrange i]
    rcases Nat.lt_or_eq_of_le (Nat.le_of_lt_succ hi) with hlt | rfl
    · rw [entry_insert t p i entry hlt, ← ht.children_eq i hlt]
      split <;> simp
    · -- no node has the new one as its parent, since parents are older
      rw [entry_insert_new, if_neg (Nat.ne_of_gt hp), List.append_nil, hentry]
      refine (List.filter_eq_nil_iff.mpr fun c hc hpar => ?_).symm
      have hcs : c < t.size := List.mem_range.mp hc
      have hpar : (t.node c).entry.parent = some t.size := of_decide_eq_true hpar
      rcases Nat.eq_zero_or_pos c with rfl | hpos
      · rw [ht.root_parent] at hpar
        cases hpar
      · obtain ⟨q, hq, hcq⟩ := ht.parent_lt c hpos hcs
        have : q = t.size := Option.some.inj (hcq.symm.trans hpar)
        omega

theorem isTree_of_reachable {t : Outline} (ht : t.Reachable) : t.IsTree := by
  induction ht with
  | empty origin => exact isTree_empty origin
  | @apply t e _ he ih =>
    rcases apply_cases t e with ⟨entry, hentry, h⟩ | ⟨f, hf, h⟩
    · rw [h]
      exact isTree_insert ih he entry hentry
    · rw [h]
      exact isTree_modify ih e.target f hf

namespace IsTree

variable {t : Outline} (ht : t.IsTree)
include ht

theorem parent_lt_self {i p : Nat} (hi : i < t.size) (hp : (t.node i).entry.parent = some p) :
    p < i := by
  rcases Nat.eq_zero_or_pos i with rfl | hpos
  · rw [ht.root_parent] at hp
    cases hp
  · obtain ⟨q, hq, hiq⟩ := ht.parent_lt i hpos hi
    exact Option.some.inj (hiq.symm.trans hp) ▸ hq

theorem lt_of_mem_children {i c : Nat} (hi : i < t.size) (hc : c ∈ (t.node i).entry.children) :
    i < c ∧ c < t.size := by
  rw [ht.children_eq i hi, List.mem_filter, List.mem_range] at hc
  exact ⟨ht.parent_lt_self hc.1 (of_decide_eq_true hc.2), hc.1⟩

/-- A walk down meets every child that is recorded. -/
theorem children_node (i : Nat) :
    Descent.children (t.node i) = (t.node i).entry.children.map t.node := by
  change ((t.node i).entry.children.filter (i < ·)).map t.node = _
  by_cases hi : i < t.size
  · rw [List.filter_eq_self.mpr fun c hc => decide_eq_true (ht.lt_of_mem_children hi hc).1]
  · rw [OutlineNode.entry_children_eq_nil (n := t.node i) (Nat.not_lt.mp hi)]
    rfl

/-- A walk up meets the parent that is recorded, and then what is above it. -/
theorem ancestors_node {i : Nat} (hi : i < t.size) :
    SourceNode.ancestors (t.node i) = match (t.node i).entry.parent with
      | none => []
      | some p => t.node p :: SourceNode.ancestors (t.node p) := by
  have hget : t.entries[i]?.bind OutlineEntry.parent = (t.node i).entry.parent := by
    have hi' : i < t.entries.length := hi
    simp [node, OutlineNode.entry, List.getD_eq_getElem?_getD, hi']
  change (OutlineNode.placesAbove t.entries i).map t.node = _
  rw [OutlineNode.placesAbove, hget]
  cases hp : (t.node i).entry.parent with
  | none => rfl
  | some p =>
    simp only [if_pos (ht.parent_lt_self hi hp), List.map_cons]
    rfl

theorem nodup_children (i : Nat) : (Descent.children (t.node i)).Nodup := by
  have hinj : Function.Injective t.node := fun _ _ h => congrArg OutlineNode.index h
  rw [ht.children_node]
  by_cases hi : i < t.size
  · rw [ht.children_eq i hi]
    exact (List.nodup_range.filter _).map hinj
  · rw [OutlineNode.entry_children_eq_nil (n := t.node i) (Nat.not_lt.mp hi)]
    exact List.nodup_nil

theorem parent_of_mem_children {i : Nat} {c : OutlineNode}
    (hc : c ∈ Descent.children (t.node i)) : SourceNode.parent c = some (t.node i) := by
  rw [ht.children_node] at hc
  obtain ⟨j, hj, rfl⟩ := List.mem_map.mp hc
  have hi : i < t.size := by
    by_contra hno
    rw [OutlineNode.entry_children_eq_nil (n := t.node i) (Nat.not_lt.mp hno)] at hj
    cases hj
  have hsize := (ht.lt_of_mem_children hi hj).2
  rw [ht.children_eq i hi, List.mem_filter, decide_eq_true_eq] at hj
  rw [SourceNode.parent, ht.ancestors_node hsize, hj.2]
  rfl

/-- A walk down an outline meets no node twice. -/
theorem nodup_preorder (i : Nat) : (Descent.preorder (t.node i)).Nodup := by
  have hnode : ∀ p ∈ Descent.preorder (t.node i), ∃ k, p = t.node k := by
    refine Descent.preorder_induction ⟨i, rfl⟩ ?_
    rintro _ - ⟨k, rfl⟩ c hc
    obtain ⟨j, -, rfl⟩ := List.mem_map.mp hc
    exact ⟨_, rfl⟩
  refine Descent.nodup_preorder SourceNode.parent (fun p hp c hc => ?_) (fun p hp => ?_) _
    (Descent.mem_preorder_self _)
  · obtain ⟨k, rfl⟩ := hnode p hp
    exact ht.parent_of_mem_children hc
  · obtain ⟨k, rfl⟩ := hnode p hp
    exact ht.nodup_children k

end IsTree

end Outline

end DeclScribe
