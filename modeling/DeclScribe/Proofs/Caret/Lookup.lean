import DeclScribe.Project.Listing
import DeclScribe.Proofs.Describe.Walk
import DeclScribe.Proofs.SourceFile

/-!
Looking up declarations by offset. The way down to the smallest node goes through all nodes and the
way up by parents, yet what it finds is a node that the listing of the file meets.
-/

namespace DeclScribe

open SourceNode Descent Describe Syntax

namespace SourceFile

/-- What a lookup by kinds finds is the first node of these kinds on the way up from the smallest
node at the offset. -/
theorem bind_innermost_eq_find? {f : SourceFile} {offset : Nat} (kinds : List NodeKind)
    (h : offset ≤ f.length) : (f.nodeAt offset).bind (innermost kinds) =
      ((Cursor.smallestAt offset (.root f.tree) ::
        (Cursor.smallestAt offset (.root f.tree)).ancestors).find?
          fun c => kinds.contains (kind (f.node c))).map f.node := by
  simp only [nodeAt, if_pos h, Option.bind_some, innermost]
  exact List.find?_map (f := f.node)
    (l := Cursor.smallestAt offset (.root f.tree) ::
      (Cursor.smallestAt offset (.root f.tree)).ancestors)

theorem declarationAt_eq_find? {f : SourceFile} {offset : Nat} (h : offset ≤ f.length) :
    f.declarationAt offset =
      ((Cursor.smallestAt offset (.root f.tree) ::
        (Cursor.smallestAt offset (.root f.tree)).ancestors).find?
          fun c => decide (IsDeclaration (f.node c))).map f.node := by
  have hkinds (k : NodeKind) :
      [NodeKind.method, NodeKind.lambda].contains k = decide (k = .method ∨ k = .lambda) := by
    cases k <;> rfl
  rw [declarationAt, bind_innermost_eq_find? _ h]
  simp only [hkinds]
  rfl

/-- The declaration at an offset is a method or a lambda of the file. -/
theorem mem_nodes_of_declarationAt {f : SourceFile} {offset : Nat} {n : FileNode}
    (h : f.declarationAt offset = some n) : n ∈ f.nodes ∧ IsDeclaration n := by
  have hlen : offset ≤ f.length := by
    by_contra hno
    rw [declarationAt, nodeAt, if_neg hno] at h
    cases h
  rw [declarationAt_eq_find? hlen] at h
  obtain ⟨c, hc, rfl⟩ := Option.map_eq_some_iff.mp h
  have hdecl := List.find?_some hc
  refine ⟨mem_nodes.mpr ?_, of_decide_eq_true hdecl⟩
  have hsmallest : Cursor.smallestAt offset (.root f.tree) ∈ (Cursor.root f.tree).subtree :=
    Cursor.smallestAt_mem_subtree (.root f.tree)
  rcases List.mem_cons.mp (List.mem_of_find?_eq_some hc) with rfl | habove
  · exact hsmallest
  · -- nothing is above the root
    rcases Cursor.mem_of_mem_ancestors hsmallest habove with hmem | hmem
    · exact hmem
    · cases hmem

theorem mem_preorder_of_named {f : SourceFile} {n : FileNode}
    (hleaves : ∀ m ∈ f.nodes, m.cursor.named = false → m.cursor.children = []) (hn : n ∈ f.nodes)
    (hnamed : n.cursor.named = true) : n ∈ preorder f.root := by
  obtain ⟨c, hc, rfl⟩ := List.mem_map.mp hn
  rw [preorder_root]
  refine List.mem_map_of_mem (Cursor.mem_preorder_of_named (fun d hd => ?_) hc hnamed)
  exact hleaves (f.node d) (mem_nodes.mpr hd)

section DescribeAt

variable {f : SourceFile} {offset : Nat} (settings : AttributeSettings)

theorem describeAt_eq_elim : f.describeAt settings offset =
    (f.declarationAt offset).elim (.ok none) (describeHere settings) := by
  rw [describeAt]
  cases f.declarationAt offset <;> rfl

theorem describeAt_eq_some_iff {d : Description} :
    f.describeAt settings offset = .ok (some d) ↔
      ∃ n, f.declarationAt offset = some n ∧ describeHere settings n = .ok (some d) := by
  rw [describeAt_eq_elim]
  cases f.declarationAt offset <;> simp

theorem describeAt_eq_error_iff {e : DescribeError} :
    f.describeAt settings offset = .error e ↔ ∃ n, f.declarationAt offset = some n ∧
      ¬ Enclosed n ∧ e = .noEnclosingMethod (navigationOffset n) := by
  rw [describeAt_eq_elim]
  cases f.declarationAt offset with
  | none => simp
  | some n => simpa [describeHere] using describe_eq_error_iff settings

theorem describeAt_eq_none_iff :
    f.describeAt settings offset = .ok none ↔ f.declarationAt offset = none := by
  rw [describeAt_eq_elim]
  cases hn : f.declarationAt offset with
  | none => simp
  | some n =>
    -- what is found is a declaration, and those are described or refused
    have hdecl := (mem_nodes_of_declarationAt hn).2
    simpa [describeHere, describe_eq_none_iff] using hdecl

end DescribeAt

end SourceFile

theorem FileTree.describeAt_of_loadSource {t : FileTree} {path : String} {f : SourceFile}
    (settings : AttributeSettings) (offset : Nat) (h : t.loadSource path = .ok f) :
    t.describeAt settings path offset none =
      (f.describeAt settings offset).mapError .describe := by
  rw [FileTree.describeAt, h]
  rfl

theorem FileTree.describeAt_eq_some_iff {t : FileTree} {settings : AttributeSettings}
    {path : String} {offset : Nat} {protocol : Option String} {d : Description} :
    t.describeAt settings path offset protocol = .ok (some d) ↔
      ∃ f, t.loadSource path = .ok f ∧
        SourceFile.describeAt settings { f with protocol := protocol.getD f.protocol } offset =
          .ok (some d) := by
  have hmap (x : Except DescribeError (Option Description)) :
      x.mapError LookupError.describe = .ok (some d) ↔ x = .ok (some d) := by
    cases x <;> simp [Except.mapError]
  unfold FileTree.describeAt
  cases t.loadSource path with
  | error reason => simp
  | ok f => simp [hmap]

/-- In a file whose unnamed nodes are leaves and whose methods and lambdas are named, the lookup at
an offset gives the record that the listing has for the innermost declaration there; it is refused
where the listing skips that declaration, and it gives nothing where there is no declaration. -/
theorem describeAt_agrees_with_descriptions (settings : AttributeSettings) (f : SourceFile)
    (hleaves : ∀ n ∈ f.nodes, n.cursor.named = false → n.cursor.children = [])
    (hnamed : ∀ n ∈ f.nodes, kind n = .method ∨ kind n = .lambda → n.cursor.named = true)
    (offset : Nat) :
    (∀ d, f.describeAt settings offset = .ok (some d) ↔
        ∃ n, f.declarationAt offset = some n ∧ (n, d) ∈ records settings f.root) ∧
      (records settings f.root).map Prod.snd = f.descriptions settings ∧
      (∀ e, f.describeAt settings offset = .error e ↔
        ∃ n, f.declarationAt offset = some n ∧ kind n = .lambda ∧ n ∈ skipped settings f.root ∧
          e = .noEnclosingMethod (navigationOffset n)) ∧
      (f.describeAt settings offset = .ok none ↔ f.declarationAt offset = none) ∧
      (∀ n ∈ skipped settings f.root, ∀ d, (n, d) ∉ records settings f.root) ∧
      (∀ other, f.declarationAt other = f.declarationAt offset →
        f.describeAt settings other = f.describeAt settings offset) ∧
      ∀ t path, FileTree.loadSource t path = .ok f →
        t.describeAt settings path offset none =
          (f.describeAt settings offset).mapError .describe := by
  -- what the lookup finds is named, so the listing meets it
  have hlisted {n : FileNode} (hn : f.declarationAt offset = some n) : n ∈ preorder f.root := by
    obtain ⟨hmem, hdecl⟩ := SourceFile.mem_nodes_of_declarationAt hn
    exact SourceFile.mem_preorder_of_named hleaves hmem (hnamed n hmem hdecl)
  refine ⟨fun d => ?_, map_snd_records settings f.root, fun e => ?_,
    SourceFile.describeAt_eq_none_iff settings, fun n hn d hd => ?_, fun other h => ?_,
    fun t path ht => FileTree.describeAt_of_loadSource settings offset ht⟩
  · rw [SourceFile.describeAt_eq_some_iff]
    refine exists_congr fun n => and_congr_right fun hn => ?_
    rw [mem_records, and_iff_right (hlisted hn)]
  · rw [SourceFile.describeAt_eq_error_iff]
    refine exists_congr fun n => and_congr_right fun hn => ?_
    rw [mem_skipped, and_iff_right (hlisted hn), ← and_assoc, and_congr_left_iff]
    exact fun _ => ⟨fun h => ⟨(not_enclosed_iff.mp h).1, h⟩, fun h => h.2⟩
  · have herror := describe_of_not_enclosed settings ((mem_skipped settings).mp hn).2
      (navigationOffset n)
    cases herror.symm.trans ((mem_records settings).mp hd).2
  · rw [SourceFile.describeAt_eq_elim, SourceFile.describeAt_eq_elim, h]

/-- A class with a lambda in a field and another one in a method. -/
def taskFile : SourceFile where
  path := "A.java"
  source := "class A \x7b Object o = x -> x; void m() \x7b run(y -> y); \x7d \x7d"
  language := .java
  tree :=
    .node ⟨"program", true, 0, 56, []⟩ [.node ⟨"class_declaration", true, 0, 56, []⟩ [
      .leaf ⟨"class", false, 0, 5, []⟩,
      .leaf ⟨"identifier", true, 6, 7, [.name]⟩,
      .node ⟨"class_body", true, 8, 56, [.body]⟩ [
        .leaf ⟨"\x7b", false, 8, 9, []⟩,
        .node ⟨"field_declaration", true, 10, 28, []⟩ [
          .leaf ⟨"type_identifier", true, 10, 16, [.type]⟩,
          .node ⟨"variable_declarator", true, 17, 27, []⟩ [
            .leaf ⟨"identifier", true, 17, 18, [.name]⟩,
            .leaf ⟨"=", false, 19, 20, []⟩,
            .node ⟨"lambda_expression", true, 21, 27, []⟩ [
              .leaf ⟨"identifier", true, 21, 22, [.parameters]⟩,
              .leaf ⟨"->", false, 23, 25, []⟩,
              .leaf ⟨"identifier", true, 26, 27, [.body]⟩]],
          .leaf ⟨";", false, 27, 28, []⟩],
        .node ⟨"method_declaration", true, 29, 54, []⟩ [
          .leaf ⟨"void_type", true, 29, 33, [.type]⟩,
          .leaf ⟨"identifier", true, 34, 35, [.name]⟩,
          .node ⟨"formal_parameters", true, 35, 37, [.parameters]⟩ [
            .leaf ⟨"(", false, 35, 36, []⟩, .leaf ⟨")", false, 36, 37, []⟩],
          .node ⟨"block", true, 38, 54, [.body]⟩ [
            .leaf ⟨"\x7b", false, 38, 39, []⟩,
            .node ⟨"expression_statement", true, 40, 52, []⟩ [
              .node ⟨"method_invocation", true, 40, 51, []⟩ [
                .leaf ⟨"identifier", true, 40, 43, [.name]⟩,
                .node ⟨"argument_list", true, 43, 51, []⟩ [
                  .leaf ⟨"(", false, 43, 44, []⟩,
                  .node ⟨"lambda_expression", true, 44, 50, []⟩ [
                    .leaf ⟨"identifier", true, 44, 45, [.parameters]⟩,
                    .leaf ⟨"->", false, 46, 48, []⟩,
                    .leaf ⟨"identifier", true, 49, 50, [.body]⟩],
                  .leaf ⟨")", false, 50, 51, []⟩]],
              .leaf ⟨";", false, 51, 52, []⟩],
            .leaf ⟨"\x7d", false, 53, 54, []⟩]],
        .leaf ⟨"\x7d", false, 55, 56, []⟩]]]

/-- In the method the lookup finds the lambda that is listed, in the field it is refused. -/
theorem describeAt_agrees_with_descriptions_of_taskFile :
    (∀ n ∈ taskFile.nodes, n.cursor.named = false → n.cursor.children = []) ∧
      (∀ n ∈ taskFile.nodes, kind n = .method ∨ kind n = .lambda → n.cursor.named = true) ∧
      (∃ d ∈ taskFile.descriptions {}, taskFile.describeAt {} 49 = .ok (some d)) ∧
      taskFile.describeAt {} 26 = .error (.noEnclosingMethod 21) := by
  have hleaves : ∀ n ∈ taskFile.nodes, n.cursor.named = false → n.cursor.children = [] := by
    rw [SourceFile.nodes_eq_walk]
    decide +kernel
  have hnamed : ∀ n ∈ taskFile.nodes,
      kind n = .method ∨ kind n = .lambda → n.cursor.named = true := by
    rw [SourceFile.nodes_eq_walk]
    decide +kernel
  have hagree := describeAt_agrees_with_descriptions {} taskFile hleaves hnamed
  refine ⟨hleaves, hnamed, ?_, ?_⟩
  · obtain ⟨n, hn, henclosed⟩ : ∃ n, taskFile.declarationAt 49 = some n ∧ Enclosed n := by
      rw [SourceFile.declarationAt_eq_find? (by decide +kernel),
        Cursor.smallestAt_eq_descend (k := 9) rfl]
      exact ⟨_, rfl, by decide +kernel⟩
    obtain ⟨d, hd, -⟩ := exists_describe {} (SourceFile.mem_nodes_of_declarationAt hn).2 henclosed
      (navigationOffset n)
    have hat : taskFile.describeAt {} 49 = .ok (some d) :=
      (SourceFile.describeAt_eq_some_iff {}).mpr ⟨n, hn, hd⟩
    obtain ⟨m, -, hm⟩ := ((hagree 49).1 d).mp hat
    exact ⟨d, (hagree 49).2.1 ▸ List.mem_map_of_mem hm, hat⟩
  · obtain ⟨n, hn, hlambda, henclosed, hoffset⟩ : ∃ n, taskFile.declarationAt 26 = some n ∧
        kind n = .lambda ∧ ¬ Enclosed n ∧ navigationOffset n = 21 := by
      rw [SourceFile.declarationAt_eq_find? (by decide +kernel),
        Cursor.smallestAt_eq_descend (k := 9) rfl]
      exact ⟨_, rfl, rfl, by decide +kernel, rfl⟩
    have hmem := SourceFile.mem_nodes_of_declarationAt hn
    have hlisted := SourceFile.mem_preorder_of_named hleaves hmem.1 (hnamed n hmem.1 hmem.2)
    exact ((hagree 26).2.2.1 _).mpr
      ⟨n, hn, hlambda, (mem_skipped {}).mpr ⟨hlisted, henclosed⟩, hoffset ▸ rfl⟩

end DeclScribe
