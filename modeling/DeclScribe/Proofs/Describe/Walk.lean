import DeclScribe.Proofs.Describe.Outcome
import DeclScribe.Proofs.Node.Preorder

/-!
The two listings of what is below a node. Both go through the nodes in pre-order; the strict one
stops at the first lambda that no method encloses, the lenient one leaves such lambdas out.
-/

namespace DeclScribe.Describe

open SourceNode Descent

variable {ν : Type} [SourceNode ν] (settings : AttributeSettings)

/-- The records from a node down, each with the node that it is of. -/
def records (r : ν) : List (ν × Description) :=
  (preorder r).filterMap fun n => (record? settings n).map (n, ·)

/-- The nodes from a node down that have an error in the place of a record. -/
def skipped (r : ν) : List ν := (preorder r).filter fun n => !(describeHere settings n).isOk

section Lenient

theorem listAll_eq_filterMap (r : ν) :
    listAll settings r = (preorder r).filterMap (record? settings) := by
  -- a node that has no record for whatever reason leaves the list as it is
  have hcons (n : ν) (rest : List ν) : listEach settings (n :: rest) =
      (record? settings n).toList ++ listEach settings (children n ++ rest) := by
    rw [listEach]
    unfold record?
    split
    · next d h => rw [h]; rfl
    · next h =>
      cases hn : describeHere settings n with
      | error e => rfl
      | ok here =>
        cases here with
        | none => rfl
        | some d => exact absurd hn (h d)
  have hfold (ns : List ν) :
      ns.foldr (fun n ds => (record? settings n).toList ++ ds) [] =
        ns.filterMap (record? settings) := by
    induction ns with
    | nil => rfl
    | cons n ns ih =>
      rw [List.foldr_cons, ih, List.filterMap_cons]
      cases record? settings n <;> rfl
  have hwalk := walk_eq_foldr (fun n ds => (record? settings n).toList ++ ds) (listEach settings)
    hcons [r]
  rw [listAll, hwalk, listEach, hfold, List.flatMap_singleton]

theorem map_snd_records (r : ν) : (records settings r).map Prod.snd = listAll settings r := by
  rw [listAll_eq_filterMap, records, List.map_filterMap]
  refine List.filterMap_congr fun n _ => ?_
  cases record? settings n <;> rfl

theorem map_fst_records (r : ν) : (records settings r).map Prod.fst =
    (preorder r).filter fun n => (record? settings n).isSome := by
  rw [records, List.map_filterMap, ← List.filterMap_eq_filter]
  refine List.filterMap_congr fun n _ => ?_
  cases h : record? settings n <;> simp [Option.guard, h]

theorem mem_records {r n : ν} {d : Description} :
    (n, d) ∈ records settings r ↔ n ∈ preorder r ∧ describeHere settings n = .ok (some d) := by
  rw [← record?_eq_some_iff]
  constructor
  · intro h
    obtain ⟨m, hm, heq⟩ := List.mem_filterMap.mp h
    obtain ⟨e, he, hpair⟩ := Option.map_eq_some_iff.mp heq
    cases hpair
    exact ⟨hm, he⟩
  · rintro ⟨hn, hd⟩
    exact List.mem_filterMap.mpr ⟨n, hn, by rw [hd]; rfl⟩

theorem mem_listAll {r : ν} {d : Description} :
    d ∈ listAll settings r ↔ ∃ n ∈ preorder r, describeHere settings n = .ok (some d) := by
  simp only [listAll_eq_filterMap, List.mem_filterMap, record?_eq_some_iff]

/-- The records in front of a record are those of the nodes that the walk meets before. -/
theorem exists_split_of_records {r n : ν} {j : Nat} {d : Description}
    (h : (records settings r)[j]? = some (n, d)) : ∃ before after,
      preorder r = before ++ n :: after ∧
        (before.filterMap fun m => (record? settings m).map (m, ·)) =
          (records settings r).take j := by
  obtain ⟨hj, hget⟩ := List.getElem?_eq_some_iff.mp h
  have hsplit := List.take_append_drop j (records settings r)
  rw [List.drop_eq_getElem_cons hj, hget] at hsplit
  obtain ⟨front, rest, hpre, hfront, hrest⟩ := List.filterMap_eq_append_iff.mp hsplit.symm
  -- between the last record in front and this one there may be nodes without records
  obtain ⟨blank, m, after, hafter, hblank, hm, -⟩ := List.filterMap_eq_cons_iff.mp hrest
  obtain ⟨e, -, hpair⟩ := Option.map_eq_some_iff.mp hm
  cases hpair
  refine ⟨front ++ blank, after, ?_, ?_⟩
  · rw [hpre, hafter, List.append_assoc]
  · rw [List.filterMap_append, hfront, List.filterMap_eq_nil_iff.mpr hblank, List.append_nil]

theorem mem_skipped {r n : ν} : n ∈ skipped settings r ↔ n ∈ preorder r ∧ ¬ Enclosed n := by
  have hok : (!(describeHere settings n).isOk) = true ↔ ¬ Enclosed n := by
    cases h : describeHere settings n with
    | error e => simp [((describe_eq_error_iff settings).mp h).1, Except.isOk, Except.toBool]
    | ok here =>
      have he : Enclosed n := by
        by_contra hno
        have := h.symm.trans (describe_of_not_enclosed settings hno _)
        cases this
      simp [he, Except.isOk, Except.toBool]
  rw [skipped, List.mem_filter, hok]

theorem skipped_eq_filter (r : ν) :
    skipped settings r = (preorder r).filter fun n => ¬ Enclosed n := by
  refine List.filter_congr fun n hn => Bool.eq_iff_iff.mpr ?_
  have h := mem_skipped settings (r := n) (n := n)
  rw [skipped, List.mem_filter] at h
  simpa [mem_preorder_self n] using h

/-- In the order of a list, one record for every declaration that has one. -/
theorem forall₂_record? (ns : List ν) :
    List.Forall₂ (fun n d => describe settings n (navigationOffset n) = .ok (some d))
      (ns.filter fun n => IsDeclaration n ∧ Enclosed n) (ns.filterMap (record? settings)) := by
  induction ns with
  | nil => exact .nil
  | cons n ns ih =>
    cases hn : record? settings n with
    | none =>
      have hno := (record?_eq_none_iff settings).mp hn
      rw [List.filterMap_cons_none hn, List.filter_cons_of_neg (by simpa using hno)]
      exact ih
    | some d =>
      have hde := isDeclaration_and_enclosed_of_record? settings hn
      rw [List.filterMap_cons_some hn, List.filter_cons_of_pos (by simpa using hde)]
      exact .cons ((record?_eq_some_iff settings).mp hn) ih

/-- Where nothing is skipped, every method and every lambda has a record. -/
theorem forall₂_record?_of_enclosed {ns : List ν} (h : ∀ n ∈ ns, Enclosed n) :
    List.Forall₂ (fun n d => describe settings n (navigationOffset n) = .ok (some d))
      (ns.filter fun n => kind n = .method ∨ kind n = .lambda)
      (ns.filterMap (record? settings)) := by
  have hfilter : (ns.filter fun n => IsDeclaration n ∧ Enclosed n) =
      ns.filter fun n => kind n = .method ∨ kind n = .lambda :=
    List.filter_congr fun n hn => decide_eq_decide.mpr (and_iff_left (h n hn))
  rw [← hfilter]
  exact forall₂_record? settings ns

end Lenient

section Strict

/-- What a node adds to the strict listing of the nodes behind it. -/
def prepend (n : ν) (later : Except DescribeError (List Description)) :
    Except DescribeError (List Description) :=
  match describeHere settings n with
  | .error e => .error e
  | .ok here => later.map (here.toList ++ ·)

theorem describeAll_eq_foldr (r : ν) :
    describeAll settings r = (preorder r).foldr (prepend settings) (.ok []) := by
  have hcons (n : ν) (rest : List ν) : describeEach settings (n :: rest) =
      prepend settings n (describeEach settings (children n ++ rest)) := by
    rw [describeEach]
    rfl
  have hwalk := walk_eq_foldr (prepend settings) (describeEach settings) hcons [r]
  rw [describeAll, hwalk, describeEach, List.flatMap_singleton]

theorem foldr_prepend_of_enclosed {ns : List ν} (h : ∀ n ∈ ns, Enclosed n)
    (later : Except DescribeError (List Description)) :
    ns.foldr (prepend settings) later =
      later.map (ns.filterMap (record? settings) ++ ·) := by
  induction ns with
  | nil => cases later <;> rfl
  | cons n ns ih =>
    have hns := ih fun m hm => h m (List.mem_cons_of_mem n hm)
    have hn : describeHere settings n = .ok (record? settings n) := by
      unfold record?
      cases hn : describeHere settings n with
      | error e => exact absurd (h n List.mem_cons_self) ((describe_eq_error_iff settings).mp hn).1
      | ok here => rfl
    rw [List.foldr_cons, hns, prepend, hn, List.filterMap_cons]
    cases later <;> cases record? settings n <;> rfl

theorem foldr_prepend_of_not_enclosed {before after : List ν} {n : ν}
    (hbefore : ∀ m ∈ before, Enclosed m) (hn : ¬ Enclosed n)
    (later : Except DescribeError (List Description)) :
    (before ++ n :: after).foldr (prepend settings) later =
      .error (.noEnclosingMethod (navigationOffset n)) := by
  -- the error does not depend on what stands behind the node
  have hstop : (n :: after).foldr (prepend settings) later =
      .error (.noEnclosingMethod (navigationOffset n)) := by
    rw [List.foldr_cons, prepend, describeHere, describe_of_not_enclosed settings hn]
  rw [List.foldr_append, hstop, foldr_prepend_of_enclosed settings hbefore]
  rfl

end Strict

/-- A list in which not every node is enclosed has a first one that is not. -/
theorem exists_first_not_enclosed {ns : List ν} (h : ¬ ∀ n ∈ ns, Enclosed n) :
    ∃ before n after, ns = before ++ n :: after ∧ (∀ m ∈ before, Enclosed m) ∧ ¬ Enclosed n := by
  have hsome : (ns.find? fun n => ¬ Enclosed n).isSome := by
    simpa [List.find?_isSome] using h
  obtain ⟨n, hn⟩ := Option.isSome_iff_exists.mp hsome
  obtain ⟨hne, before, after, hsplit, hbefore⟩ := List.find?_eq_some_iff_append.mp hn
  exact ⟨before, n, after, hsplit, fun m hm => by simpa using hbefore m hm,
    of_decide_eq_true hne⟩

theorem describeAll_of_enclosed {r : ν} (h : ∀ n ∈ preorder r, Enclosed n) :
    describeAll settings r = .ok (listAll settings r) := by
  rw [describeAll_eq_foldr, foldr_prepend_of_enclosed settings h, listAll_eq_filterMap]
  simp [Except.map]

theorem describeAll_of_not_enclosed {r n : ν} {before after : List ν}
    (hsplit : preorder r = before ++ n :: after) (hbefore : ∀ m ∈ before, Enclosed m)
    (hn : ¬ Enclosed n) :
    describeAll settings r = .error (.noEnclosingMethod (navigationOffset n)) := by
  rw [describeAll_eq_foldr, hsplit]
  exact foldr_prepend_of_not_enclosed settings hbefore hn _

theorem skipped_eq_nil_iff {r : ν} :
    skipped settings r = [] ↔ ∀ n ∈ preorder r, Enclosed n := by
  simp [skipped_eq_filter]

theorem skipped_of_split {r n : ν} {before after : List ν}
    (hsplit : preorder r = before ++ n :: after) (hbefore : ∀ m ∈ before, Enclosed m)
    (hn : ¬ Enclosed n) : skipped settings r = n :: after.filter fun m => ¬ Enclosed m := by
  have hnil : (before.filter fun m => ¬ Enclosed m) = [] := by
    simpa [List.filter_eq_nil_iff] using hbefore
  rw [skipped_eq_filter, hsplit, List.filter_append, hnil,
    List.filter_cons_of_pos (by simpa using hn), List.nil_append]

theorem describeAll_eq_ok_iff {r : ν} {ds : List Description} :
    describeAll settings r = .ok ds ↔ skipped settings r = [] ∧ ds = listAll settings r := by
  rw [skipped_eq_nil_iff]
  by_cases h : ∀ n ∈ preorder r, Enclosed n
  · rw [describeAll_of_enclosed settings h]
    exact ⟨fun hds => ⟨h, (Except.ok.inj hds).symm⟩, fun hds => hds.2 ▸ rfl⟩
  · obtain ⟨before, n, after, hsplit, hbefore, hn⟩ := exists_first_not_enclosed h
    rw [describeAll_of_not_enclosed settings hsplit hbefore hn]
    exact ⟨fun hds => (nomatch hds), fun hds => absurd hds.1 h⟩

theorem exists_split_of_describeAll_eq_error {r : ν} {e : DescribeError}
    (h : describeAll settings r = .error e) :
    ∃ before n after, preorder r = before ++ n :: after ∧ (∀ m ∈ before, Enclosed m) ∧
      ¬ Enclosed n ∧ e = .noEnclosingMethod (navigationOffset n) := by
  have hsome : ¬ ∀ n ∈ preorder r, Enclosed n := by
    intro hall
    rw [describeAll_of_enclosed settings hall] at h
    cases h
  obtain ⟨before, n, after, hsplit, hbefore, hn⟩ := exists_first_not_enclosed hsome
  rw [describeAll_of_not_enclosed settings hsplit hbefore hn] at h
  exact ⟨before, n, after, hsplit, hbefore, hn, (Except.error.inj h).symm⟩

/-- What the strict listing from a node down has to be: a record for every method and every lambda
in pre-order, or else the error of the first lambda without a method above it. -/
structure ListsInPreorder (r : ν) : Prop where
  complete : (∀ n ∈ preorder r, kind n = .lambda → ∃ m ∈ ancestors n, kind m = .method) →
    ∃ ds, describeAll settings r = .ok ds ∧
      List.Forall₂ (fun n d => describe settings n (navigationOffset n) = .ok (some d))
        ((preorder r).filter fun n => kind n = .method ∨ kind n = .lambda) ds
  refused : (¬ ∀ n ∈ preorder r, kind n = .lambda → ∃ m ∈ ancestors n, kind m = .method) →
    ∃ before n after, preorder r = before ++ n :: after ∧
      (∀ l ∈ before, kind l = .lambda → ∃ m ∈ ancestors l, kind m = .method) ∧
      kind n = .lambda ∧ (∀ m ∈ ancestors n, kind m ≠ .method) ∧
      describeAll settings r = .error (.noEnclosingMethod (navigationOffset n))

theorem listsInPreorder (r : ν) : ListsInPreorder settings r where
  complete h := by
    refine ⟨listAll settings r, describeAll_of_enclosed settings h, ?_⟩
    rw [listAll_eq_filterMap]
    exact forall₂_record?_of_enclosed settings h
  refused h := by
    obtain ⟨before, n, after, hsplit, hbefore, hn⟩ := exists_first_not_enclosed h
    refine ⟨before, n, after, hsplit, hbefore, (not_enclosed_iff.mp hn).1, fun m hm hk => ?_,
      describeAll_of_not_enclosed settings hsplit hbefore hn⟩
    exact hn fun _ => ⟨m, hm, hk⟩

end DeclScribe.Describe
