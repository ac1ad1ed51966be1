import DeclScribe.Caret
import DeclScribe.Proofs.Describe.Walk
import DeclScribe.Proofs.Node.OutlineTree
import DeclScribe.Proofs.SourceFile

/-!
Listings of outlines and of source files. The strict listing is the pre-order one for every start
node; the listing of a file has the same records, less those of lambdas that no method encloses.
-/

namespace DeclScribe

open SourceNode Descent Describe

/-- From every node of an outline that edits have made, and from every node of a source file, the
strict listing is the pre-order one, and no node is met twice. In such an outline the walk goes to
all children that are recorded, and the nodes above a node are those that its recorded parents lead
to. -/
theorem describeAll_lists_in_preorder (settings : AttributeSettings) :
    (∀ t : Outline, t.Reachable → ∀ i, i < t.size →
      ListsInPreorder settings (t.node i) ∧ (preorder (t.node i)).Nodup ∧
        children (t.node i) = (t.node i).entry.children.map t.node ∧
        ancestors (t.node i) = match (t.node i).entry.parent with
          | none => []
          | some p => t.node p :: ancestors (t.node p)) ∧
      ∀ n : FileNode, ListsInPreorder settings n ∧ (preorder n).Nodup := by
  refine ⟨fun t ht i hi => ?_, fun n => ⟨listsInPreorder settings n, n.nodup_preorder⟩⟩
  have htree := Outline.isTree_of_reachable ht
  exact ⟨listsInPreorder settings (t.node i), htree.nodup_preorder i, htree.children_node i,
    htree.ancestors_node hi⟩

/-- A class with a lambda in a field, and a method with a lambda in a lambda. -/
def taskOutline : Outline :=
  .build none [.addClass 0 "A" none, .addLambda 1 none, .addMethod 1 "m" none, .addLambda 3 none,
    .addLambda 4 none]

/-- From the outer one of two lambdas down there are two records, though the method of both is
above the node that the listing starts at. -/
theorem describeAll_lists_in_preorder_taskOutline :
    taskOutline.Reachable ∧ 4 < taskOutline.size ∧
      ∃ d e, describeAll {} (taskOutline.node 4) = .ok [d, e] := by
  have hreach : taskOutline.Reachable := by
    have h₁ := Outline.Reachable.apply (e := .addClass 0 "A" none) (.empty none) (by decide)
    have h₂ := Outline.Reachable.apply (e := .addLambda 1 none) h₁ (by decide)
    have h₃ := Outline.Reachable.apply (e := .addMethod 1 "m" none) h₂ (by decide)
    have h₄ := Outline.Reachable.apply (e := .addLambda 3 none) h₃ (by decide)
    exact Outline.Reachable.apply (e := .addLambda 4 none) h₄ (by decide)
  have hsize : 4 < taskOutline.size := by decide
  have hlists := describeAll_lists_in_preorder {}
  have hpre : preorder (taskOutline.node 4) = [taskOutline.node 4, taskOutline.node 5] := by
    have hinner : preorder (taskOutline.node 5) = [taskOutline.node 5] := by
      rw [preorder_eq]
      rfl
    rw [preorder_eq, (hlists.1 taskOutline hreach 4 hsize).2.2.1]
    change taskOutline.node 4 :: (preorder (taskOutline.node 5) ++ []) = _
    rw [hinner]
    rfl
  have houter : taskOutline.node 3 ∈ ancestors (taskOutline.node 4) := by
    rw [(hlists.1 taskOutline hreach 4 hsize).2.2.2]
    exact List.mem_cons_self
  have hinner : taskOutline.node 3 ∈ ancestors (taskOutline.node 5) := by
    rw [(hlists.1 taskOutline hreach 5 (by decide)).2.2.2]
    exact List.mem_cons_of_mem _ houter
  obtain ⟨ds, hds, hrecords⟩ := (hlists.1 taskOutline hreach 4 hsize).1.complete (by
    rw [hpre]
    intro n hn _
    rcases List.mem_cons.mp hn with rfl | hn
    · exact ⟨_, houter, rfl⟩
    · exact List.mem_singleton.mp hn ▸ ⟨_, hinner, rfl⟩)
  have hlength : ds.length = 2 := by
    rw [← hrecords.length_eq, hpre]
    rfl
  obtain ⟨d, e, rfl⟩ := List.length_eq_two.mp hlength
  exact ⟨hreach, hsize, d, e, hds⟩

theorem countP_isDeclaration_enclosed {ν : Type} [SourceNode ν] (ns : List ν) :
    ns.countP (fun n => IsDeclaration n ∧ Enclosed n) = ns.countP (fun n => kind n = .method) +
      ns.countP fun n => kind n = .lambda ∧ ∃ m ∈ ancestors n, kind m = .method := by
  induction ns with
  | nil => rfl
  | cons n ns ih =>
    simp only [List.countP_cons, ih]
    by_cases hm : kind n = .method
    · simp [IsDeclaration, Enclosed, hm]
      omega
    · by_cases hl : kind n = .lambda
      · simp [IsDeclaration, Enclosed, hl]
        omega
      · simp [IsDeclaration, hm, hl]

theorem isDeclaration_and_enclosed_iff {ν : Type} [SourceNode ν] {n : ν} :
    IsDeclaration n ∧ Enclosed n ↔
      kind n = .method ∨ kind n = .lambda ∧ ∃ m ∈ ancestors n, kind m = .method := by
  by_cases hl : kind n = .lambda
  · simp [IsDeclaration, Enclosed, hl]
  · simp [IsDeclaration, Enclosed, hl]

/-- The listing of a file has a record for every method and for every lambda below one. The strict
listing is the same list where no lambda is left out, and else the error of the first lambda that
is; the records of what stands before that lambda come first in the listing of the file. -/
theorem descriptions_agree_with_describeAll (settings : AttributeSettings) (f : SourceFile) :
    List.Forall₂ (fun n d => describe settings n (navigationOffset n) = .ok (some d))
        ((preorder f.root).filter fun n =>
          kind n = .method ∨ kind n = .lambda ∧ ∃ m ∈ ancestors n, kind m = .method)
        (f.descriptions settings) ∧
      (f.descriptions settings).length = (preorder f.root).countP (fun n => kind n = .method) +
        (preorder f.root).countP
          (fun n => kind n = .lambda ∧ ∃ m ∈ ancestors n, kind m = .method) ∧
      (∀ n, n ∈ skipped settings f.root ↔
        n ∈ preorder f.root ∧ kind n = .lambda ∧ ∀ m ∈ ancestors n, kind m ≠ .method) ∧
      (∀ l, describeAll settings f.root = .ok l ↔
        skipped settings f.root = [] ∧ l = f.descriptions settings) ∧
      ∀ o, describeAll settings f.root = .error (.noEnclosingMethod o) →
        ∃ before n after later ds, preorder f.root = before ++ n :: after ∧
          skipped settings f.root = n :: later ∧ (∀ m ∈ before, m ∉ skipped settings f.root) ∧
          o = navigationOffset n ∧
          List.Forall₂ (fun m d => describe settings m (navigationOffset m) = .ok (some d))
            (before.filter fun m => kind m = .method ∨ kind m = .lambda) ds ∧
          ds <+: f.descriptions settings := by
  have hlist : f.descriptions settings = (preorder f.root).filterMap (record? settings) :=
    listAll_eq_filterMap settings f.root
  have hrecords := forall₂_record? settings (preorder f.root)
  refine ⟨?_, ?_, fun n => ?_, fun l => describeAll_eq_ok_iff settings, fun o ho => ?_⟩
  · rw [hlist]
    simpa only [isDeclaration_and_enclosed_iff] using hrecords
  · rw [hlist, ← hrecords.length_eq, ← List.countP_eq_length_filter, countP_isDeclaration_enclosed]
  · rw [mem_skipped]
    simp [Enclosed]
  · obtain ⟨before, n, after, hsplit, hbefore, hn, he⟩ :=
      exists_split_of_describeAll_eq_error settings ho
    refine ⟨before, n, after, _, before.filterMap (record? settings), hsplit,
      skipped_of_split settings hsplit hbefore hn,
      fun m hm hs => ((mem_skipped settings).mp hs).2 (hbefore m hm),
      DescribeError.noEnclosingMethod.inj he, forall₂_record?_of_enclosed settings hbefore, ?_⟩
    -- the lenient walk meets the same nodes, so its records start with those
    rw [hlist, hsplit, List.filterMap_append]
    exact List.prefix_append _ _

end DeclScribe
