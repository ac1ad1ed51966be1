import DeclScribe.Proofs.Node.Preorder
import DeclScribe.Syntax.Cursor

/-!
Nesting of syntax trees. All nodes count here, unnamed ones too. Where children lie within their
parents, a node that covers an offset is on the way down to the smallest node at that offset.
-/

namespace DeclScribe.Syntax

namespace Cursor

mutual

/-- The nodes that a walk meets which keeps to some of the children, in pre-order. -/
def walk (keep : Tree → Bool) : Tree → List (Nat × Tree) → List Cursor
  | .node l ts, above => ⟨.node l ts, above⟩ :: walkAmong keep (.node l ts) above 0 ts

/-- The nodes that such a walk meets from some children of a node down. -/
def walkAmong (keep : Tree → Bool) (parent : Tree) (above : List (Nat × Tree)) :
    Nat → List Tree → List Cursor
  | _, [] => []
  | i, t :: ts =>
    (if keep t then walk keep t ((i, parent) :: above) else []) ++
      walkAmong keep parent above (i + 1) ts

end

theorem walkAmong_eq_flatMap (keep : Tree → Bool) (parent : Tree) (above : List (Nat × Tree))
    (i : Nat) (ts : List Tree) : walkAmong keep parent above i ts =
      ((ts.mapIdx fun k t => (⟨t, (i + k, parent) :: above⟩ : Cursor)).filter
        fun c => keep c.focus).flatMap fun c => walk keep c.focus c.above := by
  induction ts generalizing i with
  | nil => rfl
  | cons t ts ih =>
    rw [walkAmong, ih (i + 1), List.mapIdx_cons, List.filter_cons]
    have hshift (k : Nat) : i + 1 + k = i + (k + 1) := by omega
    simp only [hshift]
    cases keep t <;> rfl

theorem preorder_eq_walk (D : Descent Cursor) (keep : Tree → Bool)
    (hD : ∀ c, D.children c = c.children.filter fun d => keep d.focus) (c : Cursor) :
    @Descent.preorder Cursor D c = walk keep c.focus c.above := by
  induction c using (@Descent.descent_induction Cursor D) with
  | step c ih =>
    obtain ⟨t, above⟩ := c
    cases t with
    | node l ts =>
      rw [@Descent.preorder_eq Cursor D, List.flatMap_congr ih, hD, walk, walkAmong_eq_flatMap]
      simp [children, Tree.children]

theorem preorder_eq_named_walk (c : Cursor) :
    Descent.preorder c = walk (fun t => t.label.named) c.focus c.above :=
  preorder_eq_walk _ (fun t => t.label.named) (fun _ => rfl) c

/-- The way down through all nodes. -/
@[reducible] def whole : Descent Cursor where
  children := children
  wellFounded :=
    Subrelation.wf sizeOf_focus_lt (InvImage.wf (fun c : Cursor => sizeOf c.focus) Nat.lt_wfRel.wf)

/-- A node and all nodes below it, in pre-order. -/
def subtree (c : Cursor) : List Cursor := @Descent.preorder Cursor whole c

/-- All nodes strictly below a node. -/
def inside (c : Cursor) : List Cursor := c.children.flatMap subtree

theorem subtree_eq (c : Cursor) : c.subtree = c :: c.inside := @Descent.preorder_eq Cursor whole c

theorem inside_eq_tail (c : Cursor) : c.inside = c.subtree.tail := by
  rw [subtree_eq, List.tail_cons]

theorem subtree_eq_walk (c : Cursor) : c.subtree = walk (fun _ => true) c.focus c.above :=
  preorder_eq_walk whole (fun _ => true)
    (fun _ => (List.filter_eq_self.mpr fun _ _ => rfl).symm) c

theorem mem_subtree_self (c : Cursor) : c ∈ c.subtree := @Descent.mem_preorder_self Cursor whole c

theorem mem_inside {c d : Cursor} : d ∈ c.inside ↔ ∃ e ∈ c.children, d ∈ e.subtree :=
  List.mem_flatMap

theorem mem_subtree_trans {a b c : Cursor} (hb : b ∈ a.subtree) (hc : c ∈ b.subtree) :
    c ∈ a.subtree :=
  @Descent.mem_preorder_trans Cursor whole a b c hb hc

theorem mem_subtree_of_mem_children {c d : Cursor} (hd : d ∈ c.children) : d ∈ c.subtree :=
  @Descent.mem_preorder_of_mem_children Cursor whole c d hd

theorem subtree_induction {motive : Cursor → Prop} {r : Cursor} (top : motive r)
    (step : ∀ c ∈ r.subtree, motive c → ∀ d ∈ c.children, motive d) :
    ∀ c ∈ r.subtree, motive c :=
  @Descent.preorder_induction Cursor whole motive r top step

theorem inside_trans {c d e : Cursor} (hd : d ∈ c.children) (he : e ∈ d.inside) : e ∈ c.inside :=
  mem_inside.mpr ⟨d, hd, subtree_eq d ▸ List.mem_cons_of_mem d he⟩

section Sublist

open scoped List

theorem children_sublist_inside (c : Cursor) : c.children <+ c.inside :=
  @Descent.sublist_flatMap_preorder Cursor whole c.children

theorem inside_sublist_subtree {r c : Cursor} (hc : c ∈ r.subtree) :
    c.inside <+ r.subtree := by
  have hself : c.inside <+ c.subtree := by
    rw [subtree_eq]
    exact List.sublist_cons_self c c.inside
  exact hself.trans (@Descent.preorder_sublist Cursor whole r c hc)

/-- The children of some kinds stand in the tree in their own order. -/
theorem childrenOfKinds_sublist {r c : Cursor} (hc : c ∈ r.subtree) (kinds : List String) :
    c.childrenOfKinds kinds <+ r.subtree :=
  calc c.childrenOfKinds kinds
    _ <+ c.namedChildren := List.filter_sublist
    _ <+ c.children := List.filter_sublist
    _ <+ c.inside := children_sublist_inside c
    _ <+ r.subtree := inside_sublist_subtree hc

end Sublist

/-- A walk through the named nodes stays in the tree. -/
theorem mem_subtree_of_mem_preorder {r c : Cursor} (hc : c ∈ Descent.preorder r) :
    c ∈ r.subtree := by
  refine Descent.preorder_induction (motive := (· ∈ r.subtree)) (mem_subtree_self r)
    (fun p _ hp d hd => ?_) c hc
  have hdp : d ∈ p.children := (List.mem_filter.mp hd).1
  exact mem_subtree_trans hp (mem_subtree_of_mem_children hdp)

/-- The way to a named node leads through named nodes, if unnamed nodes are leaves. -/
theorem mem_preorder_of_named {r c : Cursor}
    (hleaves : ∀ d ∈ r.subtree, d.named = false → d.children = []) (hc : c ∈ r.subtree)
    (hnamed : c.named = true) : c ∈ Descent.preorder r := by
  -- every node on the way is met or unnamed, and from an unnamed one no way leads on
  have hall : c ∈ Descent.preorder r ∨ c.named = false := by
    refine subtree_induction (motive := fun c => c ∈ Descent.preorder r ∨ c.named = false)
      (Or.inl (Descent.mem_preorder_self r)) (fun p hp ih d hd => ?_) c hc
    cases hdn : d.named with
    | false => exact Or.inr rfl
    | true =>
      rcases ih with hpr | hpn
      · have hdp : d ∈ Descent.children p := List.mem_filter.mpr ⟨hd, hdn⟩
        exact Or.inl (Descent.mem_preorder_trans hpr (Descent.mem_preorder_of_mem_children hdp))
      · rw [hleaves p hp hpn] at hd
        cases hd
  exact hall.resolve_right (by simp [hnamed])

section Ancestors

theorem ancestors_of_mem_children {c d : Cursor} (hd : d ∈ c.children) :
    d.ancestors = c :: c.ancestors := by
  obtain ⟨i, hi, rfl⟩ := List.mem_mapIdx.mp hd
  rfl

theorem nodup_children (c : Cursor) : c.children.Nodup := by
  rw [List.Nodup, List.pairwise_iff_getElem]
  intro i j hi hj hij heq
  have hfirst (k : Nat) (hk : k < c.children.length) :
      (c.children[k]).above.head? = some (k, c.focus) := by
    simp [children]
  have hpos : some (i, c.focus) = some (j, c.focus) := by
    rw [← hfirst i hi, ← hfirst j hj, heq]
  have : i = j := congrArg Prod.fst (Option.some.inj hpos)
  omega

theorem parent_of_mem_children {c d : Cursor} (hd : d ∈ c.children) : d.parent = some c := by
  rw [parent, ancestors_of_mem_children hd]
  rfl

theorem nodup_subtree (c : Cursor) : c.subtree.Nodup :=
  @Descent.nodup_preorder Cursor whole c parent (fun _ _ _ hd => parent_of_mem_children hd)
    (fun p _ => nodup_children p) c (mem_subtree_self c)

/-- What is above a node of a tree is in the tree or above it. -/
theorem mem_of_mem_ancestors {r c a : Cursor} (hc : c ∈ r.subtree) (ha : a ∈ c.ancestors) :
    a ∈ r.subtree ∨ a ∈ r.ancestors := by
  refine subtree_induction (motive := fun c => ∀ a ∈ c.ancestors, a ∈ r.subtree ∨ a ∈ r.ancestors)
    (fun a ha => Or.inr ha) (fun c hc ih d hd a ha => ?_) c hc a ha
  rw [ancestors_of_mem_children hd] at ha
  rcases List.mem_cons.mp ha with rfl | ha
  · exact Or.inl hc
  · exact ih a ha

/-- The nodes above a node and those above one of them agree from there on. -/
theorem ancestors_eq_of_split {c a : Cursor} {between above : List Cursor}
    (h : c.ancestors = between ++ a :: above) : above = a.ancestors := by
  obtain ⟨t, levels⟩ := c
  change ancestorsOf levels = between ++ a :: above at h
  induction levels generalizing between with
  | nil => simp [ancestorsOf] at h
  | cons level levels ih =>
    cases between with
    | nil =>
      obtain ⟨rfl, rfl⟩ := List.cons.inj h
      rfl
    | cons b between => exact ih (List.cons.inj h).2

theorem ancestors_of_parent {c p : Cursor} (h : c.parent = some p) :
    c.ancestors = p :: p.ancestors := by
  obtain ⟨above, hsplit⟩ := List.head?_eq_some_iff.mp h
  rw [hsplit, ancestors_eq_of_split (show c.ancestors = [] ++ p :: above from hsplit)]

/-- The way up from a node of a tree ends at the root, and all before that is strictly inside. -/
theorem exists_way_up {r c : Cursor} (hc : c ∈ r.subtree) : ∃ inner : List Cursor,
    c :: c.ancestors = inner ++ r :: r.ancestors ∧ ∀ a ∈ inner, a ∈ r.inside := by
  refine subtree_induction (motive := fun c => ∃ inner : List Cursor,
    c :: c.ancestors = inner ++ r :: r.ancestors ∧ ∀ a ∈ inner, a ∈ r.inside) ?_ ?_ c hc
  · exact ⟨[], rfl, List.forall_mem_nil _⟩
  · rintro c hc ⟨inner, hway, hinner⟩ d hd
    refine ⟨d :: inner, ?_, List.forall_mem_cons.mpr ⟨?_, hinner⟩⟩
    · rw [ancestors_of_mem_children hd, hway]
      rfl
    · rw [subtree_eq] at hc
      rcases List.mem_cons.mp hc with rfl | hc
      · exact mem_inside.mpr ⟨d, hd, mem_subtree_self d⟩
      · obtain ⟨e, he, hce⟩ := mem_inside.mp hc
        exact mem_inside.mpr ⟨e, he, mem_subtree_trans hce (mem_subtree_of_mem_children hd)⟩

/-- The way up from a node of a subtree passes the top of that subtree. -/
theorem mem_way_up {r c : Cursor} (hc : c ∈ r.subtree) : r ∈ c :: c.ancestors := by
  obtain ⟨inner, hway, -⟩ := exists_way_up hc
  rw [hway]
  exact List.mem_append_right inner List.mem_cons_self

/-- On the way up from a node, what comes after one of the nodes is what is above that one. -/
theorem ancestors_eq_of_way {c a : Cursor} {before above : List Cursor}
    (h : c :: c.ancestors = before ++ a :: above) : above = a.ancestors := by
  cases before with
  | nil =>
    obtain ⟨rfl, rfl⟩ := List.cons.inj h
    rfl
  | cons b before => exact ancestors_eq_of_split (List.cons.inj h).2

theorem length_ancestors_lt {c a : Cursor} (ha : a ∈ c.ancestors) :
    a.ancestors.length < c.ancestors.length := by
  obtain ⟨between, above, hsplit⟩ := List.append_of_mem ha
  rw [hsplit, ancestors_eq_of_split hsplit, List.length_append, List.length_cons]
  omega

/-- Of two nodes on one way up, one is above the other unless they are the same. -/
theorem eq_of_mem_way {c a b : Cursor} (ha : a ∈ c :: c.ancestors) (hb : b ∈ c :: c.ancestors)
    (hdepth : a.ancestors.length = b.ancestors.length) : a = b := by
  obtain ⟨before, above, hway⟩ := List.append_of_mem ha
  rw [hway] at hb
  rcases List.mem_append.mp hb with hbefore | hb
  · obtain ⟨first, between, hsplit⟩ := List.append_of_mem hbefore
    rw [hsplit, List.append_assoc, List.cons_append] at hway
    have hab : a ∈ b.ancestors := by
      rw [← ancestors_eq_of_way hway]
      exact List.mem_append_right between List.mem_cons_self
    exact absurd hdepth (Nat.ne_of_lt (length_ancestors_lt hab))
  · rw [ancestors_eq_of_way hway] at hb
    rcases List.mem_cons.mp hb with rfl | hb
    · rfl
    · exact absurd hdepth.symm (Nat.ne_of_lt (length_ancestors_lt hb))

/-- A node is below what is above it, but for what is above the whole tree. -/
theorem mem_subtree_of_mem_ancestors {r c a : Cursor} (hc : c ∈ r.subtree)
    (ha : a ∈ c.ancestors) : c ∈ a.subtree ∨ a ∈ r.ancestors := by
  refine subtree_induction (motive := fun c => ∀ a ∈ c.ancestors, c ∈ a.subtree ∨ a ∈ r.ancestors)
    (fun a ha => Or.inr ha) (fun c hc ih d hd a ha => ?_) c hc a ha
  have hdc : d ∈ c.subtree := mem_subtree_of_mem_children hd
  rw [ancestors_of_mem_children hd] at ha
  rcases List.mem_cons.mp ha with rfl | ha
  · exact Or.inl hdc
  · exact (ih a ha).imp_left fun hca => mem_subtree_trans hca hdc

theorem not_isAt_of_length {c d : Cursor} (h : d.above.length < c.above.length) :
    c.isAt d = false := by
  apply beq_eq_false_iff_ne.mpr
  intro heq
  have hlength := congrArg List.length heq
  simp only [place, List.length_map] at hlength
  omega

/-- What a walk meets below the node that it starts at is deeper. -/
theorem eq_or_length_above_lt {r c : Cursor} (hc : c ∈ Descent.preorder r) :
    c = r ∨ r.above.length < c.above.length := by
  refine Descent.preorder_induction (motive := fun c => c = r ∨ r.above.length < c.above.length)
    (Or.inl rfl) (fun p _ hp d hd => Or.inr ?_) c hc
  obtain ⟨i, hi, rfl⟩ := List.mem_mapIdx.mp (List.mem_filter.mp hd).1
  rcases hp with rfl | hp
  · simp
  · simp only [List.length_cons]
    omega

end Ancestors

section Smallest

variable {offset : Nat}

theorem smallestAt_of_find?_eq_none {c : Cursor}
    (h : c.children.find? (endsBehind · offset) = none) : smallestAt offset c = c := by
  rw [smallestAt]
  split
  · rfl
  · next d hd => rw [h] at hd; cases hd

theorem smallestAt_of_find?_eq_some {c d : Cursor}
    (h : c.children.find? (endsBehind · offset) = some d) :
    smallestAt offset c = if d.start ≤ offset then smallestAt offset d else c := by
  rw [smallestAt]
  split
  · next hnone => rw [h] at hnone; cases hnone
  · next e he =>
    rw [h] at he
    cases he
    rfl

/-- The smallest node at an offset is reached by steps to children that end behind it and start no
later. -/
theorem smallestAt_induction {motive : Cursor → Cursor → Prop} (stay : ∀ c, motive c c)
    (step : ∀ c d e, d ∈ c.children → d.endsBehind offset = true → d.start ≤ offset →
      motive d e → motive c e) (c : Cursor) :
    motive c (smallestAt offset c) := by
  induction c using (@Descent.descent_induction Cursor whole) with
  | step c ih =>
    cases h : c.children.find? (endsBehind · offset) with
    | none =>
      rw [smallestAt_of_find?_eq_none h]
      exact stay c
    | some d =>
      rw [smallestAt_of_find?_eq_some h]
      have hd : d ∈ c.children := List.mem_of_find?_eq_some h
      have hstop : d.endsBehind offset = true := by simpa using List.find?_some h
      by_cases hstart : d.start ≤ offset
      · rw [if_pos hstart]
        exact step c d _ hd hstop hstart (ih d hd)
      · rw [if_neg hstart]
        exact stay c

/-- The node after some steps of the way down. -/
def descend (offset : Nat) : Nat → Cursor → Cursor
  | 0, c => c
  | k + 1, c =>
    match c.children.find? (endsBehind · offset) with
    | none => c
    | some d => if d.start ≤ offset then descend offset k d else c

theorem smallestAt_descend (k : Nat) (c : Cursor) :
    smallestAt offset (descend offset k c) = smallestAt offset c := by
  induction k generalizing c with
  | zero => rfl
  | succ k ih =>
    rw [descend]
    split
    · rfl
    · next d hd =>
      rw [smallestAt_of_find?_eq_some hd]
      split
      · exact ih d
      · next hlate =>
        rw [smallestAt_of_find?_eq_some hd, if_neg hlate]

theorem smallestAt_eq_descend {k : Nat} {c : Cursor}
    (hleaf : (descend offset k c).children = []) : smallestAt offset c = descend offset k c := by
  rw [← smallestAt_descend k c]
  exact smallestAt_of_find?_eq_none (by rw [hleaf]; rfl)

theorem smallestAt_mem_subtree (c : Cursor) : smallestAt offset c ∈ c.subtree :=
  smallestAt_induction (motive := fun c e => e ∈ c.subtree) mem_subtree_self
    (fun _ _ _ hd _ _ he => mem_subtree_trans (mem_subtree_of_mem_children hd) he) c

/-- The nearest node of a sort above the smallest node at an offset is the nearest one from any
node on the way there, if nothing of the sort starts between the two. -/
theorem find?_smallestAt (p : Cursor → Bool) (c : Cursor)
    (h : ∀ d ∈ c.inside, d.start ≤ offset → p d = false) :
    (smallestAt offset c :: (smallestAt offset c).ancestors).find? p =
      (c :: c.ancestors).find? p := by
  refine smallestAt_induction (motive := fun c e =>
    (∀ d ∈ c.inside, d.start ≤ offset → p d = false) →
      (e :: e.ancestors).find? p = (c :: c.ancestors).find? p)
    (fun _ _ => rfl) (fun c d e hd _ hstart ih hc => ?_) c h
  -- the child is not of the sort, so a search that starts there goes on at its parent
  have hdp : p d = false := hc d (mem_inside.mpr ⟨d, hd, mem_subtree_self d⟩) hstart
  rw [ih fun x hx => hc x (inside_trans hd hx), List.find?_cons_of_neg (by simp [hdp]),
    ancestors_of_mem_children hd]

end Smallest

section Spaced

/-- Children lie within their parent, and siblings follow one another. -/
structure Spaced (c : Cursor) : Prop where
  within : ∀ d ∈ c.children, c.start ≤ d.start ∧ d.stop ≤ c.stop
  apart : c.children.Pairwise fun a b => a.stop ≤ b.start

instance : DecidablePred Spaced := fun c =>
  decidable_of_iff ((∀ d ∈ c.children, c.start ≤ d.start ∧ d.stop ≤ c.stop) ∧
    c.children.Pairwise fun a b => a.stop ≤ b.start)
    ⟨fun h => ⟨h.1, h.2⟩, fun h => ⟨h.within, h.apart⟩⟩

theorem within_of_mem_subtree {r c : Cursor} (hr : ∀ d ∈ r.subtree, d.Spaced)
    (hc : c ∈ r.subtree) : r.start ≤ c.start ∧ c.stop ≤ r.stop := by
  refine subtree_induction (motive := fun c => r.start ≤ c.start ∧ c.stop ≤ r.stop)
    ⟨Nat.le_refl _, Nat.le_refl _⟩ (fun c hc ih d hd => ?_) c hc
  have hwithin := (hr c hc).within d hd
  exact ⟨Nat.le_trans ih.1 hwithin.1, Nat.le_trans hwithin.2 ih.2⟩

theorem smallestAt_eq_of_child {c d : Cursor} {offset : Nat} (hc : c.Spaced)
    (hd : d ∈ c.children) (hstart : d.start ≤ offset) (hstop : offset < d.stop)
    (hempty : ∀ e ∈ c.children, ¬ (e.start = offset ∧ e.stop = offset)) :
    smallestAt offset c = smallestAt offset d := by
  have hfind : c.children.find? (endsBehind · offset) = some d := by
    obtain ⟨before, after, hsplit⟩ := List.append_of_mem hd
    refine List.find?_eq_some_iff_append.mpr ⟨?_, before, after, hsplit, fun e he => ?_⟩
    · simp [endsBehind, hstop]
    · -- siblings in front end where `d` starts or earlier, and none is empty there
      have hpair := hc.apart
      rw [hsplit, List.pairwise_append] at hpair
      have hle : e.stop ≤ d.start := hpair.2.2 e he d List.mem_cons_self
      have hmem : e ∈ c.children := hsplit ▸ List.mem_append_left _ he
      have hne := hempty e hmem
      simp only [endsBehind, Bool.not_eq_true', Bool.or_eq_false_iff, decide_eq_false_iff_not,
        Bool.and_eq_false_imp, beq_iff_eq, beq_eq_false_iff_ne]
      exact ⟨by omega, fun h1 h2 => hne ⟨h1.trans h2.symm, h2.symm⟩⟩
  rw [smallestAt_of_find?_eq_some hfind, if_pos hstart]

/-- The way down to the smallest node at an offset goes through every node that covers it. -/
theorem smallestAt_eq_of_covers {r c : Cursor} {offset : Nat} (hr : ∀ d ∈ r.subtree, d.Spaced)
    (hempty : ∀ e ∈ r.subtree, ¬ (e.start = offset ∧ e.stop = offset)) (hc : c ∈ r.subtree)
    (hstart : c.start ≤ offset) (hstop : offset < c.stop) :
    smallestAt offset r = smallestAt offset c := by
  refine subtree_induction (motive := fun c => c.start ≤ offset → offset < c.stop →
      smallestAt offset r = smallestAt offset c)
    (fun _ _ => rfl) (fun c hc ih d hd hstart hstop => ?_) c hc hstart hstop
  -- the parent covers the offset as well, so the way down has come as far as that
  have hwithin := (hr c hc).within d hd
  rw [ih (Nat.le_trans hwithin.1 hstart) (Nat.lt_of_lt_of_le hstop hwithin.2)]
  exact smallestAt_eq_of_child (hr c hc) hd hstart hstop fun e he =>
    hempty e (mem_subtree_trans hc (mem_subtree_of_mem_children he))

/-- The way down goes on only to nodes that cover the offset. -/
theorem covers_smallestAt {c : Cursor} {offset : Nat}
    (hempty : ∀ e ∈ c.subtree, ¬ (e.start = offset ∧ e.stop = offset)) :
    smallestAt offset c = c ∨ (smallestAt offset c).covers offset = true := by
  refine smallestAt_induction (motive := fun c e =>
    (∀ x ∈ c.subtree, ¬ (x.start = offset ∧ x.stop = offset)) →
      e = c ∨ e.covers offset = true) (fun _ _ => Or.inl rfl)
    (fun c d e hd hstop hstart ih hc => Or.inr ?_) c hempty
  have hdc : d ∈ c.subtree := mem_subtree_of_mem_children hd
  rcases ih fun x hx => hc x (mem_subtree_trans hdc hx) with rfl | he
  · -- a child that ends behind the offset without covering it would be empty there
    have hne := hc e hdc
    simp only [endsBehind, Bool.or_eq_true, decide_eq_true_eq, Bool.and_eq_true, beq_iff_eq]
      at hstop
    simp only [covers, Bool.and_eq_true, decide_eq_true_eq]
    omega
  · exact he

/-- The way up from the smallest node at an offset passes every node that covers the offset. -/
theorem mem_way_of_covers {r c : Cursor} {offset : Nat} (hr : ∀ d ∈ r.subtree, d.Spaced)
    (hempty : ∀ e ∈ r.subtree, ¬ (e.start = offset ∧ e.stop = offset)) (hc : c ∈ r.subtree)
    (hcovers : c.covers offset = true) :
    c ∈ smallestAt offset r :: (smallestAt offset r).ancestors := by
  simp only [covers, Bool.and_eq_true, decide_eq_true_eq] at hcovers
  rw [smallestAt_eq_of_covers hr hempty hc hcovers.1 hcovers.2]
  exact mem_way_up (smallestAt_mem_subtree c)

/-- What the way up from the smallest node at an offset passes below the root covers the offset. -/
theorem covers_of_mem_way {t : Tree} {c : Cursor} {offset : Nat}
    (ht : ∀ d ∈ (root t).subtree, d.Spaced)
    (hempty : ∀ e ∈ (root t).subtree, ¬ (e.start = offset ∧ e.stop = offset))
    (hc : c ∈ smallestAt offset (root t) :: (smallestAt offset (root t)).ancestors) :
    c = root t ∨ c.covers offset = true := by
  have hmem : smallestAt offset (root t) ∈ (root t).subtree := smallestAt_mem_subtree (root t)
  have hsmallest := covers_smallestAt hempty
  rcases List.mem_cons.mp hc with rfl | habove
  · exact hsmallest
  have hct : c ∈ (root t).subtree :=
    (mem_of_mem_ancestors hmem habove).resolve_right List.not_mem_nil
  have hbelow : smallestAt offset (root t) ∈ c.subtree :=
    (mem_subtree_of_mem_ancestors hmem habove).resolve_right List.not_mem_nil
  rcases hsmallest with hroot | hcovers
  · -- nothing is above the root
    rw [hroot] at habove
    cases habove
  · have hwithin := within_of_mem_subtree (fun d hd => ht d (mem_subtree_trans hct hd)) hbelow
    simp only [covers, Bool.and_eq_true, decide_eq_true_eq] at hcovers ⊢
    exact Or.inr ⟨Nat.le_trans hwithin.1 hcovers.1, Nat.lt_of_lt_of_le hcovers.2 hwithin.2⟩

end Spaced

end Cursor

end DeclScribe.Syntax
