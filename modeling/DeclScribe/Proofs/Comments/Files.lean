import DeclScribe.Caret
import DeclScribe.Proofs.Comments.Lookup
import DeclScribe.Proofs.Describe.Mirror
import DeclScribe.Proofs.SourceFile

/-!
Files whose trees some comments are taken out of. The text and the offsets stay as they are. No
comment has a description, so the listing is the same if the nodes that stay agree with what they
were.
-/

namespace DeclScribe

open SourceNode Descent Describe Syntax

namespace SourceFile

/-- The file with a tree from which the nodes of a set are taken out. -/
def without (f : SourceFile) (gone : Cursor → Bool) : SourceFile :=
  { f with tree := prune gone f.tree [] }

open Classical in
/-- The nodes of a set that are strictly inside the tree of a file. -/
noncomputable def among (f : SourceFile) (gone : Cursor → Bool) (c : Cursor) : Bool :=
  decide (c ∈ f.root.cursor.inside) && gone c

theorem among_eq_true_iff {f : SourceFile} {gone : Cursor → Bool} {c : Cursor} :
    f.among gone c = true ↔ c ∈ f.root.cursor.inside ∧ gone c = true := by
  simp [among]

theorem onlyComments_among {f : SourceFile} {gone : Cursor → Bool}
    (hgone : ∀ c ∈ f.root.cursor.inside, gone c = true →
      c.isComment = true ∧ c.focus.label.fields = []) : OnlyComments (f.among gone) :=
  fun c hc => hgone c (among_eq_true_iff.mp hc).1 (among_eq_true_iff.mp hc).2

theorem among_eq_false {f : SourceFile} {gone : Cursor → Bool} {c : Cursor}
    (hc : gone c = false) : f.among gone c = false := by
  rw [among, hc, Bool.and_false]

theorem without_among (f : SourceFile) (gone : Cursor → Bool) :
    f.without (f.among gone) = f.without gone := by
  have hprune : prune (f.among gone) f.tree [] = prune gone f.tree [] := by
    refine Cursor.prune_congr (c := .root f.tree) fun d hd => ?_
    have hd : d ∈ f.root.cursor.inside := hd
    simp [among, hd]
  rw [without, hprune, without]

/-- The root is no node strictly inside the tree. -/
theorem among_root (f : SourceFile) (gone : Cursor → Bool) :
    f.among gone f.root.cursor = false := by
  refine Bool.eq_false_iff.mpr fun h => ?_
  obtain ⟨d, hd, hroot⟩ := Cursor.mem_inside.mp (among_eq_true_iff.mp h).1
  exact @Descent.not_mem_preorder_child Cursor Cursor.whole _ _ hd hroot

end SourceFile

/-- A comment is nothing that descriptions are about. -/
theorem Language.kind_of_gone {gone : Cursor → Bool} (hgone : OnlyComments gone) (l : Language)
    {c : Cursor} (hc : gone c = true) : l.dialect.kind c = .other := by
  cases l with
  | java =>
    have htypes := hgone.contains_kind Java.typeKinds (by decide) hc
    have hanonymous := hgone.contains_kind
      ["object_creation_expression", "enum_constant"] (by decide) hc
    have hmethods := hgone.contains_kind Java.methodKinds (by decide) hc
    have hformals := hgone.contains_kind Java.formalKinds (by decide) hc
    have hwords := hgone.contains_kind ["lambda_expression", "identifier"] (by decide) hc
    simp only [List.contains_cons, List.contains_nil, Bool.or_eq_false_iff] at hwords
    change Java.kind c = .other
    simp only [Java.kind, Java.isAnonymousClass, Java.isLambdaIdentifier, htypes, hanonymous,
      hmethods, hformals, hwords.1, hwords.2.1, Bool.false_and, Bool.or_false, Bool.false_eq_true,
      if_false]
  | kotlin =>
    have htypes := hgone.contains_kind Kotlin.typeKinds (by decide) hc
    have hmethods := hgone.contains_kind Kotlin.methodKinds (by decide) hc
    have hlambdas := hgone.contains_kind Kotlin.lambdaKinds (by decide) hc
    have hparameters := hgone.contains_kind ["parameter", "class_parameter"] (by decide) hc
    have hdeclared := hgone.contains_kind Kotlin.lambdaParameterKinds (by decide) hc
    change Kotlin.kind c = .other
    simp only [Kotlin.kind, Kotlin.isLambdaParameter, htypes, hmethods, hlambdas, hparameters,
      hdeclared, Bool.false_and, Bool.or_false, Bool.false_eq_true, if_false]

/-- The node of the pruned file that comes of a node. -/
def FileNode.without (gone : Cursor → Bool) (n : FileNode) : FileNode :=
  ⟨n.file.without gone, Cursor.kept gone n.cursor⟩

namespace FileNode

variable {gone : Cursor → Bool} {n : FileNode}

theorem navigationOffset_without
    (hname : n.dialect.nameNode (n.cursor.kept gone) =
      (n.dialect.nameNode n.cursor).map (Cursor.kept gone)) :
    navigationOffset (n.without gone) = navigationOffset n := by
  have hstart : Cursor.start ∘ Cursor.kept gone = Cursor.start := funext (Cursor.start_kept gone)
  change ((n.dialect.nameNode (n.cursor.kept gone)).map Cursor.start).getD
    (n.cursor.kept gone).start =
      ((n.dialect.nameNode n.cursor).map Cursor.start).getD n.cursor.start
  rw [hname, Option.map_map, hstart, Cursor.start_kept]

theorem parameterPairs_without {types : Bool}
    (hparameters : n.dialect.parameters n.file.source (n.cursor.kept gone) =
      (n.dialect.parameters n.file.source n.cursor).map (Cursor.kept gone))
    (hname : ∀ p ∈ parameters n, name (p.without gone) = name p)
    (htype : types = true → ∀ p ∈ parameters n, typeText (p.without gone) = typeText p) :
    (parameterPairs (parameters (n.without gone))).typed types =
      (parameterPairs (parameters n)).typed types := by
  have himage : parameters (n.without gone) = (parameters n).map (FileNode.without gone) := by
    change (n.dialect.parameters n.file.source (n.cursor.kept gone)).map _ =
      ((n.dialect.parameters n.file.source n.cursor).map n.sibling).map (FileNode.without gone)
    rw [hparameters, List.map_map, List.map_map]
    rfl
  simp only [parameterPairs, Parameters.ofPairs, Parameters.typed, himage, List.map_map]
  congr 1
  · exact List.map_congr_left fun p hp => congrArg (·.getD "") (hname p hp)
  · cases types with
    | true => exact List.map_congr_left fun p hp => congrArg (·.getD "") (htype rfl p hp)
    | false => rfl

end FileNode

namespace SourceFile

variable {settings : AttributeSettings} {types : Bool} {f : SourceFile} {gone : Cursor → Bool}

theorem mirrors_without (hagrees : ∀ n ∈ f.nodes, Agrees settings types n (n.without gone)) :
    Mirrors settings types (· ∈ f.nodes) (FileNode.without gone) where
  above := by
    intro n hn a ha
    obtain ⟨c, hc, rfl⟩ := List.mem_map.mp hn
    obtain ⟨b, hb, rfl⟩ := List.mem_map.mp ha
    rcases Cursor.mem_of_mem_ancestors hc hb with hmem | hmem
    · exact List.mem_map_of_mem hmem
    · -- nothing is above the root
      cases hmem
  ancestors_eq := by
    intro n hn
    change (Cursor.kept gone n.cursor).ancestors.map (n.without gone).sibling =
      (n.cursor.ancestors.map n.sibling).map (FileNode.without gone)
    rw [Cursor.ancestors_kept, List.map_map, List.map_map]
    rfl
  agrees := hagrees

theorem preorder_without (hgone : OnlyComments gone) (hroot : gone f.root.cursor = false) :
    preorder (f.without gone).root =
      ((preorder f.root).filter fun n => !gone n.cursor).map (FileNode.without gone) := by
  rw [preorder_root, preorder_root, List.filter_map, List.map_map]
  change (preorder (Cursor.kept gone f.root.cursor)).map _ = _
  rw [Cursor.preorder_kept (fun _ => hgone.descent_children_eq_nil) hroot, List.map_map]
  rfl

/-- What descriptions are about stays. -/
theorem stays_of_isDeclaration (hgone : OnlyComments gone) {n : FileNode} (hn : IsDeclaration n) :
    gone n.cursor = false := by
  refine Bool.eq_false_iff.mpr fun h => ?_
  have hother : kind n = .other := Language.kind_of_gone hgone n.file.language h
  simp [IsDeclaration, hother] at hn

/-- Where the nodes give the answers that they gave before, the listing is as before. -/
theorem descriptions_without_of_agrees (hgone : OnlyComments gone)
    (hroot : gone f.root.cursor = false)
    (hagrees : ∀ n ∈ f.nodes, Agrees settings types n (n.without gone)) :
    ((f.without gone).descriptions settings).map (Description.typed types) =
      (f.descriptions settings).map (Description.typed types) := by
  rw [descriptions, descriptions, listAll_eq_filterMap, listAll_eq_filterMap,
    preorder_without hgone hroot, List.filterMap_map, List.filterMap_filter, List.map_filterMap,
    List.map_filterMap]
  refine List.filterMap_congr fun n hn => ?_
  obtain ⟨c, hc, rfl⟩ := exists_cursor_of_mem_preorder hn
  cases hgc : gone c with
  | true =>
    -- a comment has no record
    have hnone : record? settings (f.node c) = none := by
      refine (record?_eq_none_iff settings).mpr fun hd => ?_
      cases hgc.symm.trans (stays_of_isDeclaration hgone hd.1)
    rw [hnone]
    simp [node, hgc]
  | false =>
    rw [if_pos (by simp [node, hgc])]
    exact (mirrors_without hagrees).record?_eq (mem_nodes.mpr hc)

/-- Comments that are taken out of a tree change what is listed in types at most, and only if they are
in the way of some type. -/
theorem descriptions_without_of_agrees_among {gone : Cursor → Bool} {unobstructed : Prop}
    (hgone : ∀ c ∈ f.root.cursor.inside, gone c = true →
      c.isComment = true ∧ c.focus.label.fields = [])
    (hagrees : OnlyComments (f.among gone) → ∀ types : Bool, (types = true → unobstructed) →
      ∀ n ∈ f.nodes, Agrees settings types n (n.without (f.among gone))) :
    ((f.without gone).descriptions settings).map (Description.typed false) =
        (f.descriptions settings).map (Description.typed false) ∧
      (unobstructed → (f.without gone).descriptions settings = f.descriptions settings) := by
  have honly : OnlyComments (f.among gone) := onlyComments_among hgone
  rw [← without_among]
  have huntyped := descriptions_without_of_agrees honly (among_root f gone)
    (hagrees honly false nofun)
  refine ⟨huntyped, fun hfree => ?_⟩
  have htyped := descriptions_without_of_agrees honly (among_root f gone)
    (hagrees honly true fun _ => hfree)
  rwa [List.map_id'' Description.typed_true, List.map_id'' Description.typed_true] at htyped

end SourceFile

end DeclScribe
