import DeclScribe.Proofs.QualifiedName

/-!
Classes that are declared in a block. A block is of no account for qualified names: only a method, a
lambda or a class without a name keeps what is below it from having one. So a class in the block of
an initializer or of an accessor is named as a member of the class around would be.
-/

namespace DeclScribe

open SourceNode Descent Syntax

theorem Language.kind_of_block {l : Language} {c : Cursor} (h : c.kind = "block") :
    l.dialect.kind c = .other := by
  cases l with
  | java =>
    change Java.kind c = .other
    simp [Java.kind, Java.typeKinds, Java.methodKinds, Java.formalKinds, Java.isAnonymousClass,
      Java.isLambdaIdentifier, h]
  | kotlin =>
    change Kotlin.kind c = .other
    simp [Kotlin.kind, Kotlin.typeKinds, Kotlin.methodKinds, Kotlin.lambdaKinds,
      Kotlin.isLambdaParameter, Kotlin.lambdaParameterKinds, h]

namespace FileNode

theorem not_hidesNames_of_block {b : FileNode} (h : b.cursor.kind = "block") : ¬ b.HidesNames := by
  have hother : kind b = .other := Language.kind_of_block h
  simp [HidesNames, hother]

theorem mem_ancestors_trans {n a b : FileNode} (ha : a ∈ ancestors n) (hb : b ∈ ancestors a) :
    b ∈ ancestors n := by
  change a ∈ n.cursor.ancestors.map n.sibling at ha
  obtain ⟨c, hc, rfl⟩ := List.mem_map.mp ha
  obtain ⟨between, above, hsplit⟩ := List.append_of_mem hc
  change b ∈ c.ancestors.map n.sibling at hb
  change b ∈ n.cursor.ancestors.map n.sibling
  rw [hsplit, Cursor.ancestors_eq_of_split hsplit, List.map_append, List.map_cons]
  exact List.mem_append_right _ (List.mem_cons_of_mem _ hb)

/-- What hides names hides those of all classes below, whatever lies between. -/
theorem qualifiedName_eq_none_of_hidesNames {m a : FileNode} (ha : a ∈ ancestors m)
    (hhides : a.HidesNames) : qualifiedName m = none := by
  by_cases hkind : kind m = .type
  · exact (qualifiedName_eq_none_iff hkind).mpr (Or.inr (Or.inr ⟨a, ha, hhides⟩))
  · rw [qualifiedName_eq, if_neg (by simp [hkind])]

end FileNode

/-- Whether a class has a qualified name does not depend on the blocks that it is declared in. If
nothing above it hides names, it is named as a member of the class right around it, blocks in
between or not; if something does, neither the class nor any class below has a qualified name. -/
theorem qualifiedName_of_local (f : SourceFile)
    (hroot : ∀ c ∈ f.root.cursor.inside, c.kind ≠ f.language.rootKind) (n : FileNode)
    (hn : n ∈ f.nodes) (hkind : kind n = .type) :
    (qualifiedName n = none ↔ n.isAnonymousClass = true ∨ name n = none ∨
        ∃ a ∈ ancestors n, a.cursor.kind ≠ "block" ∧ a.HidesNames) ∧
      ((∃ a ∈ ancestors n, a.HidesNames) →
        qualifiedName n = none ∧ ∀ m, n ∈ ancestors m → qualifiedName m = none) ∧
      ((∀ a ∈ ancestors n, ¬ a.HidesNames) → n.isAnonymousClass = false →
        ∀ s d, name n = some s → containingClass n = some d → d.isAnonymousClass = false →
          ∃ q, qualifiedName d = some q ∧ qualifiedName n = some (q ++ "." ++ s)) := by
  refine ⟨?_, ?_, ?_⟩
  · have hblock : (∃ a ∈ ancestors n, a.cursor.kind ≠ "block" ∧ a.HidesNames) ↔
        ∃ a ∈ ancestors n, a.HidesNames := by
      refine exists_congr fun a => and_congr_right fun _ => and_iff_right_of_imp fun hhides hb => ?_
      exact FileNode.not_hidesNames_of_block hb hhides
    rw [hblock]
    exact FileNode.qualifiedName_eq_none_iff hkind
  · rintro ⟨a, ha, hhides⟩
    refine ⟨FileNode.qualifiedName_eq_none_of_hidesNames ha hhides, fun m hm => ?_⟩
    exact FileNode.qualifiedName_eq_none_of_hidesNames (FileNode.mem_ancestors_trans hm ha) hhides
  · intro hplain hanonymous s d hs hd hdanonymous
    obtain ⟨c, hc, rfl⟩ := List.mem_map.mp hn
    have hdmem : d ∈ ancestors (f.node c) := List.mem_of_find?_eq_some hd
    have hdkind : kind d = .type := by simpa using List.find?_some hd
    -- the class around is hidden by nothing either, and has a name as it hides nothing itself
    obtain ⟨q, hq⟩ : ∃ q, qualifiedName d = some q := by
      apply Option.ne_none_iff_exists'.mp
      rw [ne_eq, FileNode.qualifiedName_eq_none_iff hdkind]
      rintro (h | h | ⟨a, ha, hhides⟩)
      · simp [hdanonymous] at h
      · exact hplain d hdmem (Or.inr (Or.inr ⟨hdkind, h⟩))
      · exact hplain a (FileNode.mem_ancestors_trans hdmem ha) hhides
    refine ⟨q, hq, ?_⟩
    apply SourceFile.qualifiedName_of_containingClass hroot hc hkind hanonymous hs hd hq
    intro a ha
    have hnot := hplain a ((List.takeWhile_sublist _).mem ha)
    exact ⟨fun hm => hnot (Or.inl hm), fun hl => hnot (Or.inr (Or.inl hl))⟩

/-- A class in the static initializer of another one, with a class of its own. -/
def initializerFile : SourceFile where
  path := "src/A.java"
  source := "class A \x7b static \x7b class L \x7b void l() \x7b\x7d class M \x7b void m() \x7b\x7d \x7d \x7d \x7d \x7d"
  language := .java
  tree :=
    .node ⟨"program", true, 0, 70, []⟩ [
      .node ⟨"class_declaration", true, 0, 70, []⟩ [
        .leaf ⟨"class", false, 0, 5, []⟩,
        .leaf ⟨"identifier", true, 6, 7, [.name]⟩,
        .node ⟨"class_body", true, 8, 70, [.body]⟩ [
          .leaf ⟨"\x7b", false, 8, 9, []⟩,
          .node ⟨"static_initializer", true, 10, 68, []⟩ [
            .leaf ⟨"static", false, 10, 16, []⟩,
            .node ⟨"block", true, 17, 68, []⟩ [
              .leaf ⟨"\x7b", false, 17, 18, []⟩,
              .node ⟨"class_declaration", true, 19, 66, []⟩ [
                .leaf ⟨"class", false, 19, 24, []⟩,
                .leaf ⟨"identifier", true, 25, 26, [.name]⟩,
                .node ⟨"class_body", true, 27, 66, [.body]⟩ [
                  .leaf ⟨"\x7b", false, 27, 28, []⟩,
                  .node ⟨"method_declaration", true, 29, 40, []⟩ [
                    .leaf ⟨"void_type", true, 29, 33, [.type]⟩,
                    .leaf ⟨"identifier", true, 34, 35, [.name]⟩,
                    .node ⟨"formal_parameters", true, 35, 37, [.parameters]⟩ [
                      .leaf ⟨"(", false, 35, 36, []⟩,
                      .leaf ⟨")", false, 36, 37, []⟩],
                    .node ⟨"block", true, 38, 40, [.body]⟩ [
                      .leaf ⟨"\x7b", false, 38, 39, []⟩,
                      .leaf ⟨"\x7d", false, 39, 40, []⟩]],
                  .node ⟨"class_declaration", true, 41, 64, []⟩ [
                    .leaf ⟨"class", false, 41, 46, []⟩,
                    .leaf ⟨"identifier", true, 47, 48, [.name]⟩,
                    .node ⟨"class_body", true, 49, 64, [.body]⟩ [
                      .leaf ⟨"\x7b", false, 49, 50, []⟩,
                      .node ⟨"method_declaration", true, 51, 62, []⟩ [
                        .leaf ⟨"void_type", true, 51, 55, [.type]⟩,
                        .leaf ⟨"identifier", true, 56, 57, [.name]⟩,
                        .node ⟨"formal_parameters", true, 57, 59, [.parameters]⟩ [
                          .leaf ⟨"(", false, 57, 58, []⟩,
                          .leaf ⟨")", false, 58, 59, []⟩],
                        .node ⟨"block", true, 60, 62, [.body]⟩ [
                          .leaf ⟨"\x7b", false, 60, 61, []⟩,
                          .leaf ⟨"\x7d", false, 61, 62, []⟩]],
                      .leaf ⟨"\x7d", false, 63, 64, []⟩]],
                  .leaf ⟨"\x7d", false, 65, 66, []⟩]],
              .leaf ⟨"\x7d", false, 67, 68, []⟩]],
          .leaf ⟨"\x7d", false, 69, 70, []⟩]]]

/-- The class in the initializer is named as a member of the class around it. -/
theorem qualifiedName_of_local_initializerFile :
    ∃ n ∈ initializerFile.nodes, (∃ b ∈ ancestors n, b.cursor.kind = "block") ∧
      ∃ d q, containingClass n = some d ∧ qualifiedName d = some q ∧
        qualifiedName n = some (q ++ "." ++ "L") := by
  have hroot : ∀ c ∈ initializerFile.root.cursor.inside,
      c.kind ≠ initializerFile.language.rootKind := by
    rw [Cursor.inside_eq_tail, Cursor.subtree_eq_walk]
    decide +kernel
  have hclass : ∃ n ∈ initializerFile.nodes, kind n = .type ∧ name n = some "L" ∧
      n.isAnonymousClass = false ∧ (∃ b ∈ ancestors n, b.cursor.kind = "block") ∧
      (containingClass n).map FileNode.isAnonymousClass = some false ∧
      ∀ a ∈ ancestors n, ¬ (kind a = .method ∨ kind a = .lambda ∨
        (kind a = .type ∧ name a = none)) := by
    rw [SourceFile.nodes_eq_walk]
    decide +kernel
  obtain ⟨n, hn, hkind, hname, hanonymous, hblock, haround, hplain⟩ := hclass
  obtain ⟨d, hd, hdanonymous⟩ := Option.map_eq_some_iff.mp haround
  obtain ⟨q, hq, hqn⟩ := (qualifiedName_of_local initializerFile hroot n hn hkind).2.2 hplain
    hanonymous "L" d hname hd hdanonymous
  exact ⟨n, hn, hblock, d, q, hd, hq, hqn⟩

/-- A class that is declared in a block may have a qualified name, and so may a class below it. -/
theorem exists_qualifiedName_below_block :
    ∃ m ∈ initializerFile.nodes, kind m = .type ∧ qualifiedName m = some "A.L.M" ∧
      ∃ n ∈ ancestors m, kind n = .type ∧ qualifiedName n = some "A.L" ∧
        ∃ b ∈ ancestors n, b.cursor.kind = "block" := by
  rw [SourceFile.nodes_eq_walk]
  decide +kernel

end DeclScribe
