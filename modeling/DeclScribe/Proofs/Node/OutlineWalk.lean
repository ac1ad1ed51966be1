import Mathlib.Logic.Relation
import DeclScribe.Proofs.Node.OutlineTree

/-!
Walks in outlines. Recorded parents lead from every node to the root, so a walk up ends there and
finds the nearest node of a kind, and a walk down from the root meets every node once.
-/

namespace DeclScribe

open SourceNode Descent

namespace Outline

/-- Recorded parents lead from the second place up to the first. -/
def Above (t : Outline) (a i : Nat) : Prop :=
  Relation.TransGen (fun i p => (t.node i).entry.parent = some p) i a

/-- The first place is above the second one and of the kind, and none of the kind is between. -/
def IsNearest (t : Outline) (k : NodeKind) (a i : Nat) : Prop :=
  t.Above a i ∧ kind (t.node a) = k ∧ ∀ b, t.Above b i → t.Above a b → kind (t.node b) ≠ k

/-- What is above a node is its parent or above its parent. -/
theorem above_iff {t : Outline} {a i : Nat} :
    t.Above a i ↔ ∃ p, (t.node i).entry.parent = some p ∧ (a = p ∨ t.Above a p) := by
  unfold Above
  rw [Relation.TransGen.head'_iff]
  refine exists_congr fun p => and_congr_right fun _ => ?_
  rw [Relation.reflTransGen_iff_eq_or_transGen]

namespace IsTree

variable {t : Outline} (ht : t.IsTree)
include ht

theorem parent_eq_none_iff {i : Nat} (hi : i < t.size) :
    (t.node i).entry.parent = none ↔ i = 0 := by
  constructor
  · intro hnone
    by_contra hne
    obtain ⟨p, -, hp⟩ := ht.parent_lt i (Nat.pos_of_ne_zero hne) hi
    cases hnone.symm.trans hp
  · rintro rfl
    exact ht.root_parent

theorem mem_children_iff {i c : Nat} (hi : i < t.size) :
    c ∈ (t.node i).entry.children ↔ c < t.size ∧ (t.node c).entry.parent = some i := by
  rw [ht.children_eq i hi, List.mem_filter, List.mem_range, decide_eq_true_eq]

theorem pairwise_children {i : Nat} (hi : i < t.size) :
    (t.node i).entry.children.Pairwise (· < ·) := by
  rw [ht.children_eq i hi]
  exact List.pairwise_lt_range.filter _

/-- A node below the root stands once among the children of one node. -/
theorem exists_unique_count_children {c : Nat} (hpos : 0 < c) (hc : c < t.size) :
    ∃ p, p < t.size ∧ (t.node p).entry.children.count c = 1 ∧
      ∀ q, q < t.size → c ∈ (t.node q).entry.children → q = p := by
  obtain ⟨p, hpc, hp⟩ := ht.parent_lt c hpos hc
  have hsize : p < t.size := Nat.lt_trans hpc hc
  have hmem : c ∈ (t.node p).entry.children := (ht.mem_children_iff hsize).mpr ⟨hc, hp⟩
  have hnodup : (t.node p).entry.children.Nodup := (ht.pairwise_children hsize).imp Nat.ne_of_lt
  refine ⟨p, hsize, List.count_eq_one_of_mem hnodup hmem, fun q hq hcq => ?_⟩
  have hparent := ((ht.mem_children_iff hq).mp hcq).2
  exact Option.some.inj (hparent.symm.trans hp)

theorem lt_of_above {a i : Nat} (hi : i < t.size) (ha : t.Above a i) : a < i := by
  induction i using Nat.strongRecOn with
  | ind i ih =>
    obtain ⟨p, hp, rfl | hap⟩ := above_iff.mp ha
    · exact ht.parent_lt_self hi hp
    · have hpi := ht.parent_lt_self hi hp
      exact Nat.lt_trans (ih p hpi (Nat.lt_trans hpi hi) hap) hpi

/-- Of two nodes above a third, the older is above the younger. -/
theorem above_of_lt {a b i : Nat} (hi : i < t.size) (ha : t.Above a i) (hb : t.Above b i)
    (hab : a < b) : t.Above a b := by
  induction i using Nat.strongRecOn with
  | ind i ih =>
    obtain ⟨p, hp, ha⟩ := above_iff.mp ha
    obtain ⟨q, hq, hb⟩ := above_iff.mp hb
    obtain rfl : p = q := Option.some.inj (hp.symm.trans hq)
    have hpi := ht.parent_lt_self hi hp
    have hsize : p < t.size := Nat.lt_trans hpi hi
    rcases hb with rfl | hb
    · exact ha.resolve_left (Nat.ne_of_lt hab)
    · rcases ha with rfl | ha
      · -- the parent is younger than all that is above it
        exact absurd (ht.lt_of_above hsize hb) (Nat.not_lt.mpr (Nat.le_of_lt hab))
      · exact ih p hpi hsize ha hb

/-- A walk up goes through the nodes that recorded parents lead to. -/
theorem mem_ancestors_iff {i : Nat} (hi : i < t.size) {n : OutlineNode} :
    n ∈ ancestors (t.node i) ↔ ∃ a, t.Above a i ∧ n = t.node a := by
  induction i using Nat.strongRecOn with
  | ind i ih =>
    rw [ht.ancestors_node hi]
    cases hp : (t.node i).entry.parent with
    | none =>
      constructor
      · intro hn
        cases hn
      · rintro ⟨a, ha, -⟩
        obtain ⟨p, hp', -⟩ := above_iff.mp ha
        cases hp.symm.trans hp'
    | some p =>
      have hpi := ht.parent_lt_self hi hp
      have habove : ∀ a, t.Above a i ↔ a = p ∨ t.Above a p := by
        intro a
        rw [above_iff, hp]
        simp only [Option.some.injEq, exists_eq_left']
      simp only [List.mem_cons, ih p hpi (Nat.lt_trans hpi hi), habove, or_and_right, exists_or,
        exists_eq_left]

/-- A walk up goes from younger to older nodes. -/
theorem pairwise_ancestors {i : Nat} (hi : i < t.size) :
    (ancestors (t.node i)).Pairwise fun m n => n.index < m.index := by
  induction i using Nat.strongRecOn with
  | ind i ih =>
    rw [ht.ancestors_node hi]
    cases hp : (t.node i).entry.parent with
    | none => exact .nil
    | some p =>
      have hpi := ht.parent_lt_self hi hp
      have hsize : p < t.size := Nat.lt_trans hpi hi
      refine .cons (fun n hn => ?_) (ih p hpi hsize)
      obtain ⟨a, ha, rfl⟩ := (ht.mem_ancestors_iff hsize).mp hn
      exact ht.lt_of_above hsize ha

/-- There is one nearest node of a kind at most. -/
theorem eq_of_isNearest {i : Nat} (hi : i < t.size) {k : NodeKind} {a b : Nat}
    (ha : t.IsNearest k a i) (hb : t.IsNearest k b i) : a = b := by
  obtain ⟨habove, hkind, hbetween⟩ := ha
  obtain ⟨habove', hkind', hbetween'⟩ := hb
  rcases Nat.lt_trichotomy a b with hlt | heq | hlt
  · exact absurd hkind' (hbetween b habove' (ht.above_of_lt hi habove habove' hlt))
  · exact heq
  · exact absurd hkind (hbetween' a habove (ht.above_of_lt hi habove' habove hlt))

theorem isNearest_of_nearest {i : Nat} (hi : i < t.size) {k : NodeKind} {n : OutlineNode}
    (h : nearest k (t.node i) = some n) : ∃ a, n = t.node a ∧ t.IsNearest k a i := by
  obtain ⟨hkind, before, after, hsplit, hbefore⟩ := List.find?_eq_some_iff_append.mp h
  have hpairs := ht.pairwise_ancestors hi
  rw [hsplit, List.pairwise_append, List.pairwise_cons] at hpairs
  have hmem : n ∈ ancestors (t.node i) := hsplit ▸ List.mem_append_right _ List.mem_cons_self
  obtain ⟨a, ha, rfl⟩ := (ht.mem_ancestors_iff hi).mp hmem
  refine ⟨a, rfl, ha, of_decide_eq_true hkind, fun b hb hab => ?_⟩
  have hlt : a < b := ht.lt_of_above (Nat.lt_trans (ht.lt_of_above hi hb) hi) hab
  have hbmem : t.node b ∈ before ++ t.node a :: after :=
    hsplit ▸ (ht.mem_ancestors_iff hi).mpr ⟨b, hb, rfl⟩
  -- what stands behind the node that is found is older than it, and `b` is younger
  rcases List.mem_append.mp hbmem with hfront | hback
  · simpa using hbefore _ hfront
  · rcases List.mem_cons.mp hback with heq | hback
    · exact absurd (congrArg OutlineNode.index heq) (Nat.ne_of_gt hlt)
    · exact absurd (hpairs.2.1.1 _ hback) (Nat.not_lt.mpr (Nat.le_of_lt hlt))

theorem nearest_eq_none_iff {i : Nat} (hi : i < t.size) {k : NodeKind} :
    nearest k (t.node i) = none ↔ ∀ a, t.Above a i → kind (t.node a) ≠ k := by
  rw [nearest, List.find?_eq_none]
  constructor
  · intro h a ha
    simpa using h _ ((ht.mem_ancestors_iff hi).mpr ⟨a, ha, rfl⟩)
  · intro h n hn
    obtain ⟨a, ha, rfl⟩ := (ht.mem_ancestors_iff hi).mp hn
    simpa using h a ha

/-- A search upwards finds the nearest node of a kind. -/
theorem nearest_eq_some_iff {i : Nat} (hi : i < t.size) {k : NodeKind} {n : OutlineNode} :
    nearest k (t.node i) = some n ↔ ∃ a, n = t.node a ∧ t.IsNearest k a i := by
  refine ⟨ht.isNearest_of_nearest hi, ?_⟩
  rintro ⟨a, rfl, ha⟩
  obtain ⟨m, hm⟩ : ∃ m, nearest k (t.node i) = some m := by
    apply Option.ne_none_iff_exists'.mp
    intro hnone
    exact (ht.nearest_eq_none_iff hi).mp hnone a ha.1 ha.2.1
  obtain ⟨b, rfl, hb⟩ := ht.isNearest_of_nearest hi hm
  rw [hm, ht.eq_of_isNearest hi ha hb]

/-- A walk down from the root meets every node. -/
theorem mem_preorder_root_iff {n : OutlineNode} :
    n ∈ preorder (t.node 0) ↔ ∃ i, i < t.size ∧ n = t.node i := by
  constructor
  · refine preorder_induction (motive := fun n => ∃ i, i < t.size ∧ n = t.node i)
      ⟨0, ht.size_pos, rfl⟩ ?_ n
    rintro _ - ⟨i, hi, rfl⟩ c hc
    rw [ht.children_node] at hc
    obtain ⟨j, hj, rfl⟩ := List.mem_map.mp hc
    exact ⟨j, (ht.lt_of_mem_children hi hj).2, rfl⟩
  · rintro ⟨i, hi, rfl⟩
    induction i using Nat.strongRecOn with
    | ind i ih =>
      rcases Nat.eq_zero_or_pos i with rfl | hpos
      · exact mem_preorder_self _
      · obtain ⟨p, hpi, hp⟩ := ht.parent_lt i hpos hi
        have hsize : p < t.size := Nat.lt_trans hpi hi
        have hchild : t.node i ∈ children (t.node p) := by
          rw [ht.children_node]
          exact List.mem_map_of_mem ((ht.mem_children_iff hsize).mpr ⟨hi, hp⟩)
        exact mem_preorder_trans (ih p hpi hsize) (mem_preorder_of_mem_children hchild)

theorem perm_preorder_root : (preorder (t.node 0)).Perm ((List.range t.size).map t.node) := by
  have hinj : Function.Injective t.node := fun _ _ h => congrArg OutlineNode.index h
  apply (List.perm_ext_iff_of_nodup (ht.nodup_preorder 0) (List.nodup_range.map hinj)).mpr
  intro n
  rw [ht.mem_preorder_root_iff, List.mem_map]
  simp only [List.mem_range, eq_comm]

end IsTree

/-- Whatever edits of existing nodes make an outline, it is a tree. The root alone has no parent,
and all parents are older than their children; the children of a node stand in the order of age and
are those whose parent it is, so each node below the root is once a child; a walk down from the root
meets every node once; and a search upwards ends with the nearest node of a kind, or with none if
there is none above. -/
theorem tree_of_edits (t : Outline) (ht : t.Reachable) :
    (0 < t.size ∧ ∀ i, i < t.size → ((t.node i).entry.parent = none ↔ i = 0)) ∧
      (∀ i p, i < t.size → (t.node i).entry.parent = some p → p < i) ∧
      (∀ i, i < t.size → (t.node i).entry.children.Pairwise (· < ·) ∧
        ∀ c, c ∈ (t.node i).entry.children ↔ c < t.size ∧ (t.node c).entry.parent = some i) ∧
      (∀ c, 0 < c → c < t.size → ∃ p, p < t.size ∧ (t.node p).entry.children.count c = 1 ∧
        ∀ q, q < t.size → c ∈ (t.node q).entry.children → q = p) ∧
      (preorder (t.node 0)).Perm ((List.range t.size).map t.node) ∧
      ∀ i, i < t.size →
        children (t.node i) = (t.node i).entry.children.map t.node ∧
          parent (t.node i) = (t.node i).entry.parent.map t.node ∧
          ∀ k, (∀ n, nearest k (t.node i) = some n ↔ ∃ a, n = t.node a ∧ t.IsNearest k a i) ∧
            (nearest k (t.node i) = none ↔ ∀ a, t.Above a i → kind (t.node a) ≠ k) := by
  have htree := isTree_of_reachable ht
  refine ⟨⟨htree.size_pos, fun i => htree.parent_eq_none_iff⟩, fun i p => htree.parent_lt_self,
    fun i hi => ⟨htree.pairwise_children hi, fun c => htree.mem_children_iff hi⟩,
    fun c => htree.exists_unique_count_children, htree.perm_preorder_root, fun i hi => ?_⟩
  refine ⟨htree.children_node i, ?_, fun k => ⟨fun n => htree.nearest_eq_some_iff hi,
    htree.nearest_eq_none_iff hi⟩⟩
  rw [parent, htree.ancestors_node hi]
  cases (t.node i).entry.parent <;> rfl

/-- A method with a lambda in a lambda, and with a parameter that was added behind the outer
lambda. -/
def retryOutline : Outline :=
  .build none [.addClass 0 "A" none, .addMethod 1 "m" none, .addLambda 2 none,
    .addParameter 2 (some "p") "int", .addLambda 3 none, .markInterface 1]

/-- The method is the nearest one above the inner lambda, the outer lambda is the first of its
children, and a walk meets six nodes. -/
theorem tree_of_edits_retryOutline :
    retryOutline.IsNearest .method 2 5 ∧ 3 ∈ (retryOutline.node 2).entry.children ∧
      (preorder (retryOutline.node 0)).length = 6 := by
  have hreach : retryOutline.Reachable := by
    have h₁ := Reachable.apply (e := .addClass 0 "A" none) (.empty none) (by decide)
    have h₂ := Reachable.apply (e := .addMethod 1 "m" none) h₁ (by decide)
    have h₃ := Reachable.apply (e := .addLambda 2 none) h₂ (by decide)
    have h₄ := Reachable.apply (e := .addParameter 2 (some "p") "int") h₃ (by decide)
    have h₅ := Reachable.apply (e := .addLambda 3 none) h₄ (by decide)
    exact Reachable.apply (e := .markInterface 1) h₅ (by decide)
  obtain ⟨-, -, hchildren, -, hperm, hwalks⟩ := tree_of_edits retryOutline hreach
  have hfound : nearest .method (retryOutline.node 5) = some (retryOutline.node 2) := by
    decide +kernel
  obtain ⟨a, ha, hnearest⟩ := (((hwalks 5 (by decide)).2.2 .method).1 _).mp hfound
  refine ⟨?_, ((hchildren 2 (by decide)).2 3).mpr (by decide), hperm.length_eq⟩
  obtain rfl : 2 = a := congrArg OutlineNode.index ha
  exact hnearest

end Outline

end DeclScribe
