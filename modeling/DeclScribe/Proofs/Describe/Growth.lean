import DeclScribe.Proofs.Describe.Likeness
import DeclScribe.Proofs.Node.OutlineGrowth

/-!
Descriptions of growing outlines. A new node changes what is told of nodes that were there only by
their parameters, and a listing only by its own record, or by its own error.
-/

namespace DeclScribe

open SourceNode Descent Describe

namespace Outline

/-- A node answers as it did before a node of the kind was added under the node `p`. It has gained
the new node, at the end of its children and maybe of its parameters, if it is `p`. -/
structure Undisturbed (t t' : Outline) (p : Nat) (k : NodeKind) (i : Nat) : Prop where
  answers : Answers (t.node i) (t'.node i)
  origin_eq : SourceNode.origin (t'.node i) = SourceNode.origin (t.node i)
  ancestors_eq : ancestors (t'.node i) = (ancestors (t.node i)).map t'.counterpart
  parent_eq : parent (t'.node i) = (parent (t.node i)).map t'.counterpart
  nearest_eq : ∀ kind, nearest kind (t'.node i) = (nearest kind (t.node i)).map t'.counterpart
  children_eq : children (t'.node i) = (children (t.node i)).map t'.counterpart ++
    if i = p then [t'.node t.size] else []
  parameters_eq : parameters (t'.node i) = (parameters (t.node i)).map t'.counterpart ++
    if i = p ∧ k = .parameter then [t'.node t.size] else []

/-- The listing of a grown outline has one record more, in the place in pre-order that the new node
has: right behind all that was below its parent. -/
def InsertsRecord (settings : AttributeSettings) (t t' : Outline) (p : Nat)
    (ds : List Description) : Prop :=
  ∃ before after d,
    preorder (t.node 0) = before ++ preorder (t.node p) ++ after ∧
    preorder (t'.node 0) = (before ++ preorder (t.node p)).map t'.counterpart ++
      t'.node t.size :: after.map t'.counterpart ∧
    describeHere settings (t'.node t.size) = .ok (some d) ∧
    ds = (before ++ preorder (t.node p)).filterMap (record? settings) ++
      after.filterMap (record? settings) ∧
    describeAll settings (t'.node 0) =
      .ok ((before ++ preorder (t.node p)).filterMap (record? settings) ++
        d :: after.filterMap (record? settings))

/-- The nodes of an outline. -/
def Has (t : Outline) (n : OutlineNode) : Prop := ∃ i, i < t.size ∧ n = t.node i

namespace IsTree

variable {t : Outline} (ht : t.IsTree) {p : Nat} (hp : p < t.size) {entry : OutlineEntry}
  (hentry : entry.children = [])

section Nodes

theorem answers_insert {i : Nat} (hi : i < t.size) :
    Answers (t.node i) ((t.insert p entry).node i) := by
  obtain ⟨cs, hcs⟩ := exists_entry_insert (p := p) entry hi
  have hfields {β : Type} (field : OutlineEntry → β)
      (hfield : ∀ (x : OutlineEntry) (cs : List Nat), field { x with children := cs } = field x) :
      field ((t.insert p entry).node i).entry = field (t.node i).entry := by
    rw [hcs, hfield]
  constructor
  · exact hfields OutlineEntry.kind fun _ _ => rfl
  · exact hfields OutlineEntry.name fun _ _ => rfl
  · exact hfields OutlineEntry.qualifiedName fun _ _ => rfl
  · exact hfields OutlineEntry.modifiers fun _ _ => rfl
  · exact hfields OutlineEntry.isConstructor fun _ _ => rfl
  · exact hfields (fun x => x.kind == .type && x.isInterface) fun _ _ => rfl
  · exact hfields OutlineEntry.typeText fun _ _ => rfl
  · exact hfields OutlineEntry.text fun _ _ => rfl
  · rfl
  · rfl

include ht hp hentry

theorem carries_insert : Carries t.Has (t.insert p entry).counterpart where
  above := by
    rintro _ ⟨i, hi, rfl⟩ a ha
    exact ht.lt_size_of_mem_ancestors hi ha
  ancestors_eq := by
    rintro _ ⟨i, hi, rfl⟩
    exact ht.ancestors_insert hp hentry hi
  answers := by
    rintro _ ⟨i, hi, rfl⟩
    exact answers_insert hi

theorem undisturbed_insert {i : Nat} (hi : i < t.size) :
    t.Undisturbed (t.insert p entry) p entry.kind i where
  answers := answers_insert hi
  origin_eq := rfl
  ancestors_eq := ht.ancestors_insert hp hentry hi
  parent_eq := by
    rw [parent, parent, ht.ancestors_insert hp hentry hi, List.head?_map]
  nearest_eq := fun k => (ht.carries_insert hp hentry).nearest_eq ⟨i, hi, rfl⟩ k
  children_eq := ht.children_insert hp hentry hi
  parameters_eq := ht.parameters_insert hp hentry hi

theorem keepsParameters_insert {i : Nat} (hi : i < t.size)
    (hspared : entry.kind = .parameter → i ≠ p ∧
      (kind (t.node i) = .lambda → containingMethod (t.node i) ≠ some (t.node p))) :
    KeepsParameters (t.insert p entry).counterpart (t.node i) := by
  -- the parameters of `p` alone may grow
  have hpairs {j : Nat} (hj : j < t.size) (hjp : ¬ (j = p ∧ entry.kind = .parameter)) :
      parameterPairs (parameters ((t.insert p entry).node j)) =
        parameterPairs (parameters (t.node j)) := by
    rw [ht.parameters_insert hp hentry hj, if_neg hjp, List.append_nil, parameterPairs,
      parameterPairs, List.map_map]
    refine congrArg Parameters.ofPairs (List.map_congr_left ?_)
    intro q hq
    obtain ⟨c, hc, rfl⟩ := ht.lt_size_of_mem_children hj (List.mem_filter.mp hq).1
    have hanswers : Answers (t.node c) ((t.insert p entry).node c) := answers_insert hc
    exact congrArg₂ Prod.mk (congrArg (Option.getD · "") hanswers.name_eq)
      (congrArg (Option.getD · "") hanswers.typeText_eq)
  refine ⟨hpairs hi fun h => (hspared h.2).1 h.1, ?_⟩
  intro hlambda m hm
  obtain ⟨a, ha, rfl⟩ := ht.lt_size_of_mem_ancestors hi (List.mem_of_find?_eq_some hm)
  apply hpairs ha
  rintro ⟨rfl, hkind⟩
  exact (hspared hkind).2 hlambda hm

theorem attributes_insert (settings : AttributeSettings) (n : OutlineNode) (hn : t.Has n) :
    attributes settings n = attributes settings ((t.insert p entry).counterpart n) := by
  have horigin : ∀ m, t.Has m →
      SourceNode.origin ((t.insert p entry).counterpart m) = SourceNode.origin m := by
    rintro _ ⟨i, -, rfl⟩
    rfl
  exact (ht.carries_insert hp hentry).attributes_eq_of_origin_eq hn horigin settings

/-- A node is described as before, but for new parameters of its own or of the method around it. -/
theorem describe_insert (settings : AttributeSettings) {i : Nat} (hi : i < t.size)
    (hspared : entry.kind = .parameter → i ≠ p ∧
      (kind (t.node i) = .lambda → containingMethod (t.node i) ≠ some (t.node p)))
    (offset : Nat) :
    describe settings ((t.insert p entry).node i) offset =
      describe settings (t.node i) offset := by
  have hkeeps := ht.keepsParameters_insert hp hentry hi hspared
  have halike : SameOutcome (Option.Rel (Description.Alike fun _ => Eq))
      (describe settings (t.node i) offset)
      (describe settings ((t.insert p entry).counterpart (t.node i)) offset) :=
    describe_alike (ht.carries_insert hp hentry) (ht.attributes_insert hp hentry settings)
      ⟨i, hi, rfl⟩ (fun _ => hkeeps) offset
  exact halike.eq fun _ _ => Description.Alike.eq_of_rel

end Nodes

section Listings

include ht hp hentry

theorem filterMap_record?_insert (settings : AttributeSettings)
    (hspared : entry.kind = .parameter → ¬ IsDeclaration (t.node p)) {ns : List OutlineNode}
    (hns : ∀ n ∈ ns, t.Has n) :
    (ns.map (t.insert p entry).counterpart).filterMap (record? settings) =
      ns.filterMap (record? settings) := by
  have hkeeps : ∀ n ∈ ns, IsDeclaration n → KeepsParameters (t.insert p entry).counterpart n := by
    intro n hn hdecl
    obtain ⟨i, hi, rfl⟩ := hns n hn
    apply ht.keepsParameters_insert hp hentry hi
    intro hkind
    -- where the new node is a parameter, `p` is neither the declaration nor the method around it
    refine ⟨?_, ?_⟩
    · rintro rfl
      exact hspared hkind hdecl
    · intro _ hmethod
      have hm : kind (t.node p) = .method := by simpa using List.find?_some hmethod
      exact hspared hkind (Or.inl hm)
  exact Description.Alike.eq_of_forall₂ (forall₂_record?_alike (ht.carries_insert hp hentry)
    (ht.attributes_insert hp hentry settings) hns hkeeps)

theorem enclosed_insert_iff {n : OutlineNode} (hn : t.Has n) :
    Enclosed ((t.insert p entry).counterpart n) ↔ Enclosed n :=
  (ht.carries_insert hp hentry).enclosed_iff hn

theorem enclosed_insert_new_iff : Enclosed ((t.insert p entry).node t.size) ↔
    (entry.kind = .lambda → ∃ m ∈ t.node p :: ancestors (t.node p), kind m = .method) := by
  have hhas : ∀ n ∈ t.node p :: ancestors (t.node p), t.Has n := by
    intro n hn
    rcases List.mem_cons.mp hn with rfl | hn
    · exact ⟨p, hp, rfl⟩
    · exact ht.lt_size_of_mem_ancestors hp hn
  have habove : (∃ m ∈ ancestors ((t.insert p entry).node t.size), kind m = .method) ↔
      ∃ m ∈ t.node p :: ancestors (t.node p), kind m = .method := by
    rw [ht.ancestors_insert_new hp hentry]
    constructor
    · rintro ⟨_, hm, hkind⟩
      obtain ⟨n, hn, rfl⟩ := List.mem_map.mp hm
      obtain ⟨i, hi, rfl⟩ := hhas n hn
      exact ⟨t.node i, hn, (kind_insert entry hi).symm.trans hkind⟩
    · rintro ⟨n, hn, hkind⟩
      obtain ⟨i, hi, rfl⟩ := hhas n hn
      exact ⟨_, List.mem_map_of_mem hn, (kind_insert entry hi).trans hkind⟩
  rw [Enclosed, kind_insert_new, habove]

variable (settings : AttributeSettings) (hall : ∀ n ∈ preorder (t.node 0), Enclosed n)
include hall

theorem enclosed_insert_of_mem {n : OutlineNode} (hn : n ∈ preorder (t.node 0)) :
    Enclosed ((t.insert p entry).counterpart n) :=
  (ht.enclosed_insert_iff hp hentry (ht.mem_preorder_root_iff.mp hn)).mpr (hall n hn)

/-- A listing that succeeds goes on to do so with a new node that is enclosed. Only the record of
that node is new, where it has one. -/
theorem describeAll_insert (hspared : entry.kind = .parameter → ¬ IsDeclaration (t.node p))
    (hnew : Enclosed ((t.insert p entry).node t.size)) : ∃ before after,
      preorder (t.node 0) = before ++ preorder (t.node p) ++ after ∧
      preorder ((t.insert p entry).node 0) =
        (before ++ preorder (t.node p)).map (t.insert p entry).counterpart ++
          (t.insert p entry).node t.size :: after.map (t.insert p entry).counterpart ∧
      describeAll settings ((t.insert p entry).node 0) =
        .ok ((before ++ preorder (t.node p)).filterMap (record? settings) ++
          ((record? settings ((t.insert p entry).node t.size)).toList ++
            after.filterMap (record? settings))) := by
  obtain ⟨before, after, hold, hgrown⟩ := ht.preorder_insert hp hentry
  have hfrontMem : ∀ n ∈ before ++ preorder (t.node p), n ∈ preorder (t.node 0) := by
    intro n hn
    exact hold ▸ List.mem_append_left after hn
  have hbackMem : ∀ n ∈ after, n ∈ preorder (t.node 0) := by
    intro n hn
    exact hold ▸ List.mem_append_right _ hn
  have hfront := ht.filterMap_record?_insert hp hentry settings hspared
    fun n hn => ht.mem_preorder_root_iff.mp (hfrontMem n hn)
  have hback := ht.filterMap_record?_insert hp hentry settings hspared
    fun n hn => ht.mem_preorder_root_iff.mp (hbackMem n hn)
  -- nothing is refused, so the strict listing is the lenient one, taken in three pieces
  have hall' : ∀ n ∈ preorder ((t.insert p entry).node 0), Enclosed n := by
    rw [hgrown]
    intro n hn
    rcases List.mem_append.mp hn with hn | hn
    · obtain ⟨m, hm, rfl⟩ := List.mem_map.mp hn
      exact ht.enclosed_insert_of_mem hp hentry hall (hfrontMem m hm)
    · rcases List.mem_cons.mp hn with rfl | hn
      · exact hnew
      · obtain ⟨m, hm, rfl⟩ := List.mem_map.mp hn
        exact ht.enclosed_insert_of_mem hp hentry hall (hbackMem m hm)
  refine ⟨before, after, hold, hgrown, ?_⟩
  rw [describeAll_of_enclosed settings hall', listAll_eq_filterMap, hgrown, List.filterMap_append,
    hfront, List.filterMap_cons, hback]
  cases record? settings ((t.insert p entry).node t.size) <;> rfl

/-- A listing that succeeds is refused at a new node that is not enclosed. -/
theorem describeAll_insert_of_not_enclosed
    (hnew : ¬ Enclosed ((t.insert p entry).node t.size)) :
    describeAll settings ((t.insert p entry).node 0) =
      .error (.noEnclosingMethod (SourceNode.offset ((t.insert p entry).node t.size))) := by
  obtain ⟨before, after, hold, hgrown⟩ := ht.preorder_insert hp hentry
  -- all nodes that the walk meets before the new one were enclosed already
  apply describeAll_of_not_enclosed settings hgrown ?_ hnew
  intro n hn
  obtain ⟨m, hm, rfl⟩ := List.mem_map.mp hn
  have hmem : m ∈ preorder (t.node 0) := hold ▸ List.mem_append_left after hm
  exact ht.enclosed_insert_of_mem hp hentry hall hmem

/-- A new node that is no declaration leaves the listing as it is. -/
theorem describeAll_insert_of_not_isDeclaration
    (hspared : entry.kind = .parameter → ¬ IsDeclaration (t.node p))
    (hkind : ¬ (entry.kind = .method ∨ entry.kind = .lambda)) :
    describeAll settings ((t.insert p entry).node 0) = .ok (listAll settings (t.node 0)) := by
  have hdecl : ¬ IsDeclaration ((t.insert p entry).node t.size) := by
    rw [IsDeclaration, kind_insert_new]
    exact hkind
  have hnone : record? settings ((t.insert p entry).node t.size) = none :=
    (record?_eq_none_iff settings).mpr fun h => hdecl h.1
  obtain ⟨before, after, hold, -, hlist⟩ := ht.describeAll_insert hp hentry settings hall hspared
    (enclosed_of_not_isDeclaration hdecl)
  rw [hlist, hnone, Option.toList_none, List.nil_append, ← List.filterMap_append, ← hold,
    listAll_eq_filterMap]

/-- A new declaration that is enclosed adds its record to the listing. -/
theorem insertsRecord_insert (hkind : entry.kind = .method ∨ entry.kind = .lambda)
    (hnew : Enclosed ((t.insert p entry).node t.size)) :
    t.InsertsRecord settings (t.insert p entry) p (listAll settings (t.node 0)) := by
  have hdecl : IsDeclaration ((t.insert p entry).node t.size) := by
    rw [IsDeclaration, kind_insert_new]
    exact hkind
  have hspared : entry.kind = .parameter → ¬ IsDeclaration (t.node p) := by
    intro hparameter
    rw [hparameter] at hkind
    simp at hkind
  obtain ⟨d, hd, -⟩ := exists_describe settings hdecl hnew
    (navigationOffset ((t.insert p entry).node t.size))
  have hrecord : record? settings ((t.insert p entry).node t.size) = some d :=
    (record?_eq_some_iff settings).mpr hd
  obtain ⟨before, after, hold, hgrown, hlist⟩ :=
    ht.describeAll_insert hp hentry settings hall hspared hnew
  rw [hrecord] at hlist
  refine ⟨before, after, d, hold, hgrown, hd, ?_, hlist⟩
  rw [listAll_eq_filterMap, hold, List.filterMap_append]

end Listings

end IsTree

/-- A new node disturbs nothing that was in an outline. All other nodes answer as they did, and its
parent has it behind its other children, and as its last parameter if it is one; so each node is
described as it was, but for a new parameter of its own, or of the nearest method if it is a lambda.
A listing from the root that succeeds stays the same where the new node is neither a method nor a
lambda nor a parameter of these. A new method, or a lambda below a method, adds one record in its
place, and for a lambda that no method encloses the listing is refused. -/
theorem new_node_disturbs_nothing (settings : AttributeSettings) {t : Outline} (ht : t.Reachable)
    {e : OutlineEdit} (he : e.target < t.size) {k : NodeKind} (hk : e.addedKind = some k) :
    (t.apply e).size = t.size + 1 ∧ kind ((t.apply e).node t.size) = k ∧
      (∀ i, i < t.size → t.Undisturbed (t.apply e) e.target k i ∧
        (¬ (k = .parameter ∧ (i = e.target ∨
            kind (t.node i) = .lambda ∧
              containingMethod (t.node i) = some (t.node e.target))) →
          ∀ offset, describe settings ((t.apply e).node i) offset =
            describe settings (t.node i) offset)) ∧
      ∀ ds, describeAll settings (t.node 0) = .ok ds →
        (k = .other ∨ k = .type ∨ k = .parameter ∧ kind (t.node e.target) ≠ .method ∧
            kind (t.node e.target) ≠ .lambda →
          describeAll settings ((t.apply e).node 0) = .ok ds) ∧
        (k = .method ∨ k = .lambda ∧
            (∃ m ∈ t.node e.target :: ancestors (t.node e.target), kind m = .method) →
          t.InsertsRecord settings (t.apply e) e.target ds) ∧
        (k = .lambda →
          (∀ m ∈ t.node e.target :: ancestors (t.node e.target), kind m ≠ .method) →
          describeAll settings ((t.apply e).node 0) =
            .error (.noEnclosingMethod (SourceNode.offset ((t.apply e).node t.size)))) := by
  have htree := isTree_of_reachable ht
  obtain ⟨entry, hkind, hentry, happly⟩ := apply_of_addedKind t hk
  rw [happly]
  subst hkind
  refine ⟨size_insert t e.target entry, kind_insert_new t e.target entry, ?_, ?_⟩
  · intro i hi
    refine ⟨htree.undisturbed_insert he hentry hi, ?_⟩
    intro hspared offset
    apply htree.describe_insert he hentry settings hi
    intro hparameter
    refine ⟨?_, ?_⟩
    · intro hi
      exact hspared ⟨hparameter, Or.inl hi⟩
    · intro hlambda hmethod
      exact hspared ⟨hparameter, Or.inr ⟨hlambda, hmethod⟩⟩
  · intro ds hds
    obtain ⟨hskipped, rfl⟩ := (describeAll_eq_ok_iff settings).mp hds
    have hall := (skipped_eq_nil_iff settings).mp hskipped
    have henclosed := htree.enclosed_insert_new_iff he hentry
    refine ⟨?_, ?_, ?_⟩
    · intro hkind
      apply htree.describeAll_insert_of_not_isDeclaration he hentry settings hall
      · intro hparameter
        rcases hkind with hother | htype | ⟨-, hmethod, hlambda⟩
        · cases hparameter.symm.trans hother
        · cases hparameter.symm.trans htype
        · exact not_or.mpr ⟨hmethod, hlambda⟩
      · rcases hkind with hkind | hkind | ⟨hkind, -⟩
        all_goals
          rw [hkind]
          simp
    · intro hkind
      apply htree.insertsRecord_insert he hentry settings hall
      · exact hkind.imp_right And.left
      · apply henclosed.mpr
        intro hlambda
        rcases hkind with hmethod | ⟨-, habove⟩
        · cases hlambda.symm.trans hmethod
        · exact habove
    · intro hlambda hnone
      apply htree.describeAll_insert_of_not_enclosed he hentry settings hall
      intro hnew
      obtain ⟨m, hm, hmethod⟩ := henclosed.mp hnew hlambda
      exact hnone m hm hmethod

/-- A class with a method that has a lambda, and with another method. -/
def handlerOutline : Outline :=
  .build none [.addClass 0 "A" none, .addMethod 1 "m" none, .addLambda 2 none, .addMethod 1 "n" none]

/-- A lambda in the lambda adds a record, and one in the class is refused. A parameter of the second
method does not change what is told of the lambda. -/
theorem new_node_disturbs_nothing_handlerOutline :
    handlerOutline.Reachable ∧
      (∃ ds, describeAll {} (handlerOutline.node 0) = .ok ds ∧
        handlerOutline.InsertsRecord {} (handlerOutline.apply (.addLambda 3 none)) 3 ds) ∧
      describeAll {} ((handlerOutline.apply (.addLambda 1 none)).node 0) =
        .error (.noEnclosingMethod 5) ∧
      describe {} ((handlerOutline.apply (.addParameter 4 none "int")).node 3) 7 =
        describe {} (handlerOutline.node 3) 7 := by
  have hreach : handlerOutline.Reachable := by
    have h₁ := Reachable.apply (e := .addClass 0 "A" none) (.empty none) (by decide)
    have h₂ := Reachable.apply (e := .addMethod 1 "m" none) h₁ (by decide)
    have h₃ := Reachable.apply (e := .addLambda 2 none) h₂ (by decide)
    exact Reachable.apply (e := .addMethod 1 "n" none) h₃ (by decide)
  have henclosed : ∀ i, i < 5 → Enclosed (handlerOutline.node i) := by decide +kernel
  have hds : describeAll {} (handlerOutline.node 0) = .ok (listAll {} (handlerOutline.node 0)) := by
    apply describeAll_of_enclosed
    intro n hn
    obtain ⟨i, hi, rfl⟩ := (isTree_of_reachable hreach).mem_preorder_root_iff.mp hn
    exact henclosed i hi
  have hinner := new_node_disturbs_nothing {} hreach (e := .addLambda 3 none) (by decide) rfl
  have houter := new_node_disturbs_nothing {} hreach (e := .addLambda 1 none) (by decide) rfl
  have hparameter :=
    new_node_disturbs_nothing {} hreach (e := .addParameter 4 none "int") (by decide) rfl
  have hbelow : ∃ m ∈ handlerOutline.node 3 :: ancestors (handlerOutline.node 3),
      kind m = .method := by decide +kernel
  have hnone : ∀ m ∈ handlerOutline.node 1 :: ancestors (handlerOutline.node 1),
      kind m ≠ .method := by decide +kernel
  have hother : containingMethod (handlerOutline.node 3) ≠ some (handlerOutline.node 4) := by
    decide +kernel
  refine ⟨hreach, ⟨_, hds, ?_⟩, ?_, ?_⟩
  · exact (hinner.2.2.2 _ hds).2.1 (Or.inr ⟨rfl, hbelow⟩)
  · exact (houter.2.2.2 _ hds).2.2 rfl hnone
  · apply (hparameter.2.2.1 3 (by decide)).2
    rintro ⟨-, hsame | ⟨-, hmethod⟩⟩
    · cases hsame
    · exact hother hmethod

end Outline

end DeclScribe
