import DeclScribe.Proofs.Caret.Lookup

/-!
What is innermost at an offset. A lookup goes down by where nodes end and then up by kind; what it
finds is the deepest node of the kinds among all nodes that cover the offset.
-/

namespace DeclScribe

open SourceNode Syntax

/-- The kinds of the root of a file, which may be the remains of one that does not parse. -/
def SourceFile.rootKinds : List String := ["program", "source_file", "ERROR"]

theorem Language.kind_of_rootKinds {l : Language} {c : Cursor}
    (h : c.kind ∈ SourceFile.rootKinds) : l.dialect.kind c = .other := by
  simp only [SourceFile.rootKinds, List.mem_cons, List.not_mem_nil, or_false] at h
  cases l with
  | java =>
    change Java.kind c = .other
    rcases h with h | h | h <;>
      simp [Java.kind, Java.typeKinds, Java.methodKinds, Java.formalKinds, Java.isAnonymousClass,
        Java.isLambdaIdentifier, h]
  | kotlin =>
    change Kotlin.kind c = .other
    rcases h with h | h | h <;>
      simp [Kotlin.kind, Kotlin.typeKinds, Kotlin.methodKinds, Kotlin.lambdaKinds,
        Kotlin.isLambdaParameter, Kotlin.lambdaParameterKinds, h]

namespace SourceFile

/-- A node of one of the kinds that covers an offset, and no other such node is deeper. -/
structure DeepestAt (f : SourceFile) (kinds : List NodeKind) (offset : Nat) (n : FileNode) :
    Prop where
  mem : n ∈ f.nodes
  kind_mem : kind n ∈ kinds
  covers : n.cursor.covers offset = true
  deepest : ∀ m ∈ f.nodes, kind m ∈ kinds → m.cursor.covers offset = true →
    (ancestors m).length ≤ (ancestors n).length

section Deepest

variable {f : SourceFile} {kinds : List NodeKind} {offset : Nat}
  (hspaced : ∀ n ∈ f.nodes, n.cursor.Spaced) (hroot : kind f.root ∉ kinds)
  (hempty : ∀ n ∈ f.nodes, ¬ (n.cursor.start = offset ∧ n.cursor.stop = offset))
include hspaced hroot hempty

/-- The nodes of some kinds that cover an offset are those on the way up from the smallest node
there. -/
theorem mem_nodes_and_covers_iff {c : Cursor} (hkind : kind (f.node c) ∈ kinds) :
    f.node c ∈ f.nodes ∧ c.covers offset = true ↔
      c ∈ Cursor.smallestAt offset (.root f.tree) ::
        (Cursor.smallestAt offset (.root f.tree)).ancestors := by
  have hs : ∀ d ∈ (Cursor.root f.tree).subtree, d.Spaced := by
    intro d hd
    exact hspaced (f.node d) (mem_nodes.mpr hd)
  have he : ∀ d ∈ (Cursor.root f.tree).subtree, ¬ (d.start = offset ∧ d.stop = offset) := by
    intro d hd
    exact hempty (f.node d) (mem_nodes.mpr hd)
  have hsmallest : Cursor.smallestAt offset (.root f.tree) ∈ (Cursor.root f.tree).subtree :=
    Cursor.smallestAt_mem_subtree (.root f.tree)
  constructor
  · rintro ⟨hmem, hcovers⟩
    exact Cursor.mem_way_of_covers hs he (mem_nodes.mp hmem) hcovers
  · intro hway
    have hmem : c ∈ (Cursor.root f.tree).subtree := by
      rcases List.mem_cons.mp hway with rfl | habove
      · exact hsmallest
      · exact (Cursor.mem_of_mem_ancestors hsmallest habove).resolve_right List.not_mem_nil
    refine ⟨mem_nodes.mpr hmem, ?_⟩
    -- the root may lie beside the offset, but it is of none of the kinds
    rcases Cursor.covers_of_mem_way hs he hway with rfl | hcovers
    · exact absurd hkind hroot
    · exact hcovers

theorem deepestAt_of_innermost (hlength : offset ≤ f.length) {n : FileNode}
    (h : (f.nodeAt offset).bind (innermost kinds) = some n) : f.DeepestAt kinds offset n := by
  rw [bind_innermost_eq_find? kinds hlength] at h
  obtain ⟨c, hfind, rfl⟩ := Option.map_eq_some_iff.mp h
  obtain ⟨hkind, before, above, hway, hbefore⟩ := List.find?_eq_some_iff_append.mp hfind
  have hkind : kind (f.node c) ∈ kinds := List.contains_iff_mem.mp hkind
  have hc := (mem_nodes_and_covers_iff hspaced hroot hempty hkind).mpr
    (hway ▸ List.mem_append_right before List.mem_cons_self)
  refine ⟨hc.1, hkind, hc.2, ?_⟩
  intro m hm hmkind hmcovers
  obtain ⟨d, -, rfl⟩ := List.mem_map.mp hm
  have hd := (mem_nodes_and_covers_iff hspaced hroot hempty hmkind).mp ⟨hm, hmcovers⟩
  -- whatever else of the kinds is on the way up comes after the node, so it is above the node
  rw [hway, Cursor.ancestors_eq_of_way hway] at hd
  have hdepth : d.ancestors.length ≤ c.ancestors.length := by
    rcases List.mem_append.mp hd with hd | hd
    · have hnot := hbefore d hd
      simp [hmkind] at hnot
    · rcases List.mem_cons.mp hd with rfl | hd
      · exact Nat.le_refl _
      · exact Nat.le_of_lt (Cursor.length_ancestors_lt hd)
  change (d.ancestors.map f.node).length ≤ (c.ancestors.map f.node).length
  rw [List.length_map, List.length_map]
  exact hdepth

theorem innermost_eq_none_iff (hlength : offset ≤ f.length) :
    (f.nodeAt offset).bind (innermost kinds) = none ↔
      ∀ n ∈ f.nodes, kind n ∈ kinds → n.cursor.covers offset = false := by
  rw [bind_innermost_eq_find? kinds hlength, Option.map_eq_none_iff, List.find?_eq_none]
  constructor
  · intro h n hn hkind
    obtain ⟨c, -, rfl⟩ := List.mem_map.mp hn
    rw [Bool.eq_false_iff]
    intro hcovers
    have hc := (mem_nodes_and_covers_iff hspaced hroot hempty hkind).mp ⟨hn, hcovers⟩
    exact h c hc (List.contains_iff_mem.mpr hkind)
  · intro h c hc hkind
    have hkind : kind (f.node c) ∈ kinds := List.contains_iff_mem.mp hkind
    have hcovers := (mem_nodes_and_covers_iff hspaced hroot hempty hkind).mpr hc
    have hnot : c.covers offset = false := h (f.node c) hcovers.1 hkind
    exact Bool.false_ne_true (hnot.symm.trans hcovers.2)

/-- No two nodes are deepest at an offset. -/
theorem DeepestAt.unique {m n : FileNode} (hm : f.DeepestAt kinds offset m)
    (hn : f.DeepestAt kinds offset n) : m = n := by
  have hdepth : (ancestors m).length = (ancestors n).length := by
    apply Nat.le_antisymm
    · exact hn.deepest m hm.mem hm.kind_mem hm.covers
    · exact hm.deepest n hn.mem hn.kind_mem hn.covers
  obtain ⟨c, -, rfl⟩ := List.mem_map.mp hm.mem
  obtain ⟨d, -, rfl⟩ := List.mem_map.mp hn.mem
  have hc := (mem_nodes_and_covers_iff hspaced hroot hempty hm.kind_mem).mp ⟨hm.mem, hm.covers⟩
  have hd := (mem_nodes_and_covers_iff hspaced hroot hempty hn.kind_mem).mp ⟨hn.mem, hn.covers⟩
  change (c.ancestors.map f.node).length = (d.ancestors.map f.node).length at hdepth
  rw [List.length_map, List.length_map] at hdepth
  exact congrArg f.node (Cursor.eq_of_mem_way hc hd hdepth)

theorem innermost_eq_some_iff (hlength : offset ≤ f.length) {n : FileNode} :
    (f.nodeAt offset).bind (innermost kinds) = some n ↔ f.DeepestAt kinds offset n := by
  have hsome {m : FileNode} := deepestAt_of_innermost (n := m) hspaced hroot hempty hlength
  refine ⟨hsome, fun hn => ?_⟩
  cases hfound : (f.nodeAt offset).bind (innermost kinds) with
  | none =>
    have hnot := (innermost_eq_none_iff hspaced hroot hempty hlength).mp hfound n hn.mem hn.kind_mem
    exact absurd (hnot.symm.trans hn.covers) Bool.false_ne_true
  | some m => exact congrArg some (DeepestAt.unique hspaced hroot hempty (hsome hfound) hn)

end Deepest

/-- What a lookup for some kinds has to find at an offset: the deepest node of these kinds that
covers it, and nothing where there is none. -/
structure FindsDeepest (f : SourceFile) (kinds : List NodeKind) (offset : Nat)
    (found : Option FileNode) : Prop where
  some_iff : ∀ n, found = some n ↔ f.DeepestAt kinds offset n
  none_iff : found = none ↔ ∀ n ∈ f.nodes, kind n ∈ kinds → n.cursor.covers offset = false

theorem bind_innermost_eq_none {f : SourceFile} {offset : Nat} (kinds : List NodeKind)
    (h : f.length < offset) : (f.nodeAt offset).bind (innermost kinds) = none := by
  rw [nodeAt, if_neg (Nat.not_le.mpr h)]
  rfl

/-- Nothing covers an offset behind the end of the text, if the tree ends no later than that. -/
theorem covers_eq_false {f : SourceFile} {offset : Nat}
    (hspaced : ∀ n ∈ f.nodes, n.cursor.Spaced) (hstop : f.root.cursor.stop ≤ f.length)
    (h : f.length < offset) {n : FileNode} (hn : n ∈ f.nodes) :
    n.cursor.covers offset = false := by
  obtain ⟨c, hc, rfl⟩ := List.mem_map.mp hn
  have hwithin : c.stop ≤ f.root.cursor.stop := by
    refine (Cursor.within_of_mem_subtree (fun d hd => ?_) hc).2
    exact hspaced (f.node d) (mem_nodes.mpr hd)
  have hlate : ¬ offset < c.stop := by omega
  change (decide (c.start ≤ offset) && decide (offset < c.stop)) = false
  rw [decide_eq_false hlate, Bool.and_false]

theorem findsDeepest_innermost {f : SourceFile} {kinds : List NodeKind} {offset : Nat}
    (hspaced : ∀ n ∈ f.nodes, n.cursor.Spaced) (hroot : kind f.root ∉ kinds)
    (hempty : ∀ n ∈ f.nodes, ¬ (n.cursor.start = offset ∧ n.cursor.stop = offset))
    (hwithin : offset ≤ f.length ∨ f.root.cursor.stop ≤ f.length) :
    f.FindsDeepest kinds offset ((f.nodeAt offset).bind (innermost kinds)) := by
  rcases Nat.lt_or_ge f.length offset with hpast | hlength
  · have hstop : f.root.cursor.stop ≤ f.length :=
      hwithin.resolve_left (Nat.not_le.mpr hpast)
    have hnone : ∀ n ∈ f.nodes, n.cursor.covers offset = false := fun n hn =>
      covers_eq_false hspaced hstop hpast hn
    rw [bind_innermost_eq_none kinds hpast]
    constructor
    · intro n
      refine ⟨fun h => (nomatch h), fun h => ?_⟩
      exact absurd ((hnone n h.mem).symm.trans h.covers) Bool.false_ne_true
    · exact iff_of_true rfl fun n hn _ => hnone n hn
  · exact ⟨fun _ => innermost_eq_some_iff hspaced hroot hempty hlength,
      innermost_eq_none_iff hspaced hroot hempty hlength⟩

/-- In a file whose nodes lie apart within one another, the lookups at an offset where no node is
empty find the deepest method or lambda that covers the offset, and the deepest method, if there is
one. Behind the end of the text they find nothing. -/
theorem lookups_find_deepest (f : SourceFile) (hspaced : ∀ n ∈ f.nodes, n.cursor.Spaced)
    (hroot : f.root.cursor.kind ∈ rootKinds) (offset : Nat) :
    ((∀ n ∈ f.nodes, ¬ (n.cursor.start = offset ∧ n.cursor.stop = offset)) →
      offset ≤ f.length ∨ f.root.cursor.stop ≤ f.length →
        f.FindsDeepest [.method, .lambda] offset (f.declarationAt offset) ∧
        f.FindsDeepest [.method] offset (f.methodAt offset)) ∧
      (f.length < offset → f.declarationAt offset = none ∧ f.methodAt offset = none) := by
  have hother : kind f.root = .other := Language.kind_of_rootKinds hroot
  refine ⟨fun hempty hwithin => ⟨?_, ?_⟩, fun hpast => ⟨?_, ?_⟩⟩
  · exact findsDeepest_innermost hspaced (by simp [hother]) hempty hwithin
  · exact findsDeepest_innermost hspaced (by simp [hother]) hempty hwithin
  · exact bind_innermost_eq_none _ hpast
  · exact bind_innermost_eq_none _ hpast

end SourceFile

/-- Within the lambda of the method, the deepest declaration is the lambda and the deepest method
the one around it. In the field in front there is no method, and at the brace that ends the class
there is no declaration. -/
theorem lookups_find_deepest_taskFile :
    (∀ n ∈ taskFile.nodes, n.cursor.Spaced) ∧
      taskFile.root.cursor.kind ∈ SourceFile.rootKinds ∧
      (∃ l m, taskFile.DeepestAt [.method, .lambda] 49 l ∧ kind l = .lambda ∧
        taskFile.DeepestAt [.method] 49 m ∧ m.cursor.start = 29) ∧
      (∀ n ∈ taskFile.nodes, kind n ∈ [NodeKind.method] → n.cursor.covers 26 = false) ∧
      taskFile.declarationAt 55 = none ∧ taskFile.declarationAt 57 = none := by
  have hspaced : ∀ n ∈ taskFile.nodes, n.cursor.Spaced := by
    rw [SourceFile.nodes_eq_walk]
    decide +kernel
  have hempty : ∀ n ∈ taskFile.nodes, n.cursor.start < n.cursor.stop := by
    rw [SourceFile.nodes_eq_walk]
    decide +kernel
  have hempty (offset : Nat) :
      ∀ n ∈ taskFile.nodes, ¬ (n.cursor.start = offset ∧ n.cursor.stop = offset) := by
    intro n hn h
    exact Nat.ne_of_lt (hempty n hn) (h.1.trans h.2.symm)
  have hroot : taskFile.root.cursor.kind ∈ SourceFile.rootKinds := by decide +kernel
  have hlength : taskFile.length = 56 := by decide +kernel
  have hlookups := SourceFile.lookups_find_deepest taskFile hspaced hroot
  refine ⟨hspaced, hroot, ?_, ?_, ?_, ?_⟩
  · obtain ⟨l, hl, hlambda⟩ : ∃ l, taskFile.declarationAt 49 = some l ∧ kind l = .lambda := by
      rw [SourceFile.declarationAt_eq_find? (by decide +kernel),
        Cursor.smallestAt_eq_descend (k := 9) rfl]
      exact ⟨_, rfl, rfl⟩
    obtain ⟨m, hm, hstart⟩ : ∃ m, taskFile.methodAt 49 = some m ∧ m.cursor.start = 29 := by
      rw [SourceFile.methodAt, SourceFile.bind_innermost_eq_find? _ (by decide +kernel),
        Cursor.smallestAt_eq_descend (k := 9) rfl]
      exact ⟨_, rfl, rfl⟩
    obtain ⟨hfound, hmethod⟩ := (hlookups 49).1 (hempty 49) (Or.inl (by omega))
    exact ⟨l, m, (hfound.some_iff l).mp hl, hlambda, (hmethod.some_iff m).mp hm, hstart⟩
  · have hnone : taskFile.methodAt 26 = none := by
      rw [SourceFile.methodAt, SourceFile.bind_innermost_eq_find? _ (by decide +kernel),
        Cursor.smallestAt_eq_descend (k := 9) rfl]
      rfl
    exact ((hlookups 26).1 (hempty 26) (Or.inl (by omega))).2.none_iff.mp hnone
  · apply ((hlookups 55).1 (hempty 55) (Or.inl (by omega))).1.none_iff.mpr
    rw [SourceFile.nodes_eq_walk]
    decide +kernel
  · exact ((hlookups 57).2 (by omega)).1

end DeclScribe
