import DeclScribe.Proofs.Syntax.Nesting

/-!
Trees that some nodes are taken out of, with all that is below them. Each node that stays has its
place in the pruned tree, and a walk there meets what stays, in the same order.
-/

namespace DeclScribe.Syntax

mutual

/-- The tree at a place without the nodes below that are to go. -/
def prune (gone : Cursor → Bool) : Tree → List (Nat × Tree) → Tree
  | .node l ts, above => .node l (pruneAmong gone (.node l ts) above 0 ts)

/-- What stays of some children of a node. -/
def pruneAmong (gone : Cursor → Bool) (parent : Tree) (above : List (Nat × Tree)) :
    Nat → List Tree → List Tree
  | _, [] => []
  | i, t :: ts =>
    if gone ⟨t, (i, parent) :: above⟩ then pruneAmong gone parent above (i + 1) ts
    else prune gone t ((i, parent) :: above) :: pruneAmong gone parent above (i + 1) ts

end

namespace Cursor

variable (gone : Cursor → Bool)

/-- The way to a node in the pruned tree: of the siblings in front only those count that stay. -/
def keptAbove : List (Nat × Tree) → List (Nat × Tree)
  | [] => []
  | (i, t) :: above =>
    (((⟨t, above⟩ : Cursor).children.take i).countP (!gone ·), prune gone t above) ::
      keptAbove above

/-- The node of the pruned tree that comes of a node. -/
def kept (c : Cursor) : Cursor := ⟨prune gone c.focus c.above, keptAbove gone c.above⟩

@[simp] theorem label_kept (c : Cursor) : (kept gone c).focus.label = c.focus.label := by
  obtain ⟨⟨l, ts⟩, above⟩ := c
  rfl

@[simp] theorem kind_kept (c : Cursor) : (kept gone c).kind = c.kind := by simp [kind]

@[simp] theorem named_kept (c : Cursor) : (kept gone c).named = c.named := by simp [named]

@[simp] theorem start_kept (c : Cursor) : (kept gone c).start = c.start := by simp [start]

@[simp] theorem text_kept (source : String) (c : Cursor) :
    (kept gone c).text source = c.text source := by simp [text, start, stop]

@[simp] theorem ancestors_kept (c : Cursor) :
    (kept gone c).ancestors = c.ancestors.map (kept gone) := by
  obtain ⟨t, above⟩ := c
  change ancestorsOf (keptAbove gone above) = (ancestorsOf above).map (kept gone)
  induction above with
  | nil => rfl
  | cons level above ih =>
    rw [keptAbove, ancestorsOf, ancestorsOf, ih]
    rfl

@[simp] theorem parent_kept (c : Cursor) : (kept gone c).parent = c.parent.map (kept gone) := by
  simp [parent]

theorem bind_parent_kept (o : Option Cursor) :
    (o.map (kept gone)).bind parent = (o.bind parent).map (kept gone) := by
  rw [Option.bind_map, Option.map_bind]
  congr 1
  funext c
  exact parent_kept gone c

theorem filter_kind_kept (o : Option Cursor) (k : String) :
    (o.map (kept gone)).filter (·.kind == k) = (o.filter (·.kind == k)).map (kept gone) := by
  rw [Option.filter_map]
  simp only [Function.comp_def, kind_kept]

theorem pruneAmong_eq (parent : Tree) (above : List (Nat × Tree)) (i : Nat) (ts : List Tree) :
    pruneAmong gone parent above i ts =
      ((ts.mapIdx fun k t => (⟨t, (i + k, parent) :: above⟩ : Cursor)).filter (!gone ·)).map
        fun c => prune gone c.focus c.above := by
  induction ts generalizing i with
  | nil => rfl
  | cons t ts ih =>
    rw [pruneAmong, ih (i + 1), List.mapIdx_cons, List.filter_cons]
    have hshift (k : Nat) : i + 1 + k = i + (k + 1) := by omega
    simp only [hshift]
    cases gone ⟨t, (i, parent) :: above⟩ <;> rfl

theorem prune_eq (c : Cursor) : prune gone c.focus c.above =
    .node c.focus.label
      ((c.children.filter (!gone ·)).map fun d => prune gone d.focus d.above) := by
  obtain ⟨⟨l, ts⟩, above⟩ := c
  change Tree.node l (pruneAmong gone (.node l ts) above 0 ts) = _
  rw [pruneAmong_eq]
  simp [children, Tree.children, Tree.label]

/-- What a node is pruned to depends on the nodes below it alone. -/
theorem prune_congr {gone other : Cursor → Bool} {c : Cursor}
    (h : ∀ d ∈ c.inside, gone d = other d) :
    prune gone c.focus c.above = prune other c.focus c.above := by
  induction c using (@Descent.descent_induction Cursor whole) with
  | step c ih =>
    have hchild : ∀ d ∈ c.children, gone d = other d := fun d hd =>
      h d (mem_inside.mpr ⟨d, hd, mem_subtree_self d⟩)
    have hfilter : c.children.filter (!gone ·) = c.children.filter (!other ·) :=
      List.filter_congr fun d hd => congrArg not (hchild d hd)
    rw [prune_eq, prune_eq, hfilter]
    congr 1
    refine List.map_congr_left fun d hd => ?_
    have hdc : d ∈ c.children := (List.mem_filter.mp hd).1
    exact ih d hdc fun e he => h e (inside_trans hdc he)

/-- What stays of a list is numbered by how much stays in front of it. -/
theorem mapIdx_filter {α β : Type} (keep : α → Bool) (f : Nat → α → β) (position : α → Nat)
    (front back : List α) (h : ∀ (k : Nat) (hk : k < back.length),
      position back[k] = front.length + k) :
    (back.filter keep).mapIdx (fun k x => f (front.countP keep + k) x) =
      (back.filter keep).map fun x => f (((front ++ back).take (position x)).countP keep) x := by
  induction back generalizing front with
  | nil => rfl
  | cons x back ih =>
    have hx : position x = front.length := h 0 (Nat.zero_lt_succ _)
    have hback : ∀ (k : Nat) (hk : k < back.length),
        position back[k] = (front ++ [x]).length + k := by
      intro k hk
      have := h (k + 1) (Nat.succ_lt_succ hk)
      simp only [List.getElem_cons_succ] at this
      rw [this, List.length_append, List.length_singleton]
      omega
    have hrest := ih (front ++ [x]) hback
    rw [List.append_assoc, List.singleton_append] at hrest
    cases hkeep : keep x with
    | false =>
      rw [List.filter_cons_of_neg (by simp [hkeep])]
      simpa [List.countP_append, hkeep] using hrest
    | true =>
      rw [List.filter_cons_of_pos hkeep, List.mapIdx_cons, List.map_cons, hx, List.take_left]
      congr 1
      rw [← hrest]
      simp only [List.countP_append, List.countP_singleton, hkeep, if_true, Nat.add_assoc,
        Nat.add_comm 1]

/-- The number of a node among the children of its parent. -/
def number (c : Cursor) : Nat := c.place.headD 0

theorem number_getElem_children (c : Cursor) (k : Nat) (hk : k < c.children.length) :
    number c.children[k] = k := by
  simp [number, place, children]

/-- The children of a node in the pruned tree are those that stay. -/
theorem children_kept (c : Cursor) :
    (kept gone c).children = (c.children.filter (!gone ·)).map (kept gone) := by
  have hchildren : (kept gone c).children =
      (c.children.filter (!gone ·)).mapIdx fun k d =>
        ⟨prune gone d.focus d.above,
          (k, prune gone c.focus c.above) :: keptAbove gone c.above⟩ := by
    have hpruned := congrArg Tree.children (prune_eq gone c)
    change (prune gone c.focus c.above).children.mapIdx _ = _
    rw [hpruned, Tree.children]
    simp only [List.mapIdx_eq_zipIdx_map, List.zipIdx_map, List.map_map]
    rfl
  have hnumbered := mapIdx_filter (!gone ·)
    (fun k d => (⟨prune gone d.focus d.above,
      (k, prune gone c.focus c.above) :: keptAbove gone c.above⟩ : Cursor)) number [] c.children
    (fun k hk => by rw [number_getElem_children, List.length_nil, Nat.zero_add])
  simp only [List.countP_nil, Nat.zero_add, List.nil_append] at hnumbered
  rw [hchildren, hnumbered]
  refine List.map_congr_left fun d hd => ?_
  obtain ⟨i, hi, rfl⟩ := List.mem_mapIdx.mp (List.mem_filter.mp hd).1
  rfl

theorem namedChildren_kept (c : Cursor) :
    (kept gone c).namedChildren = (c.namedChildren.filter (!gone ·)).map (kept gone) := by
  rw [namedChildren, children_kept, List.filter_map, namedChildren, List.filter_filter,
    List.filter_filter]
  congr 1
  refine List.filter_congr fun d _ => ?_
  rw [Function.comp_apply, named_kept, Bool.and_comm]

section Search

variable {gone}

theorem find?_filter_of_find? {α : Type} {p keep : α → Bool} {xs : List α}
    (h : ∀ x, xs.find? p = some x → keep x = true) : (xs.filter keep).find? p = xs.find? p := by
  induction xs with
  | nil => rfl
  | cons x xs ih =>
    cases hp : p x with
    | true =>
      rw [List.find?_cons_of_pos hp] at h
      rw [List.filter_cons_of_pos (h x rfl), List.find?_cons_of_pos hp, List.find?_cons_of_pos hp]
    | false =>
      rw [List.find?_cons_of_neg (by simp [hp])] at h
      rw [List.find?_cons_of_neg (by simp [hp]), ← ih h, List.filter_cons]
      split
      · rw [List.find?_cons_of_neg (by simp [hp])]
      · rfl

/-- A search that does not end at a node that goes ends at the same node in the pruned tree. -/
theorem find?_kept {ds : List Cursor} {p : Cursor → Bool} (hp : ∀ d, p (kept gone d) = p d)
    (h : ∀ d, ds.find? p = some d → gone d = false) :
    ((ds.filter (!gone ·)).map (kept gone)).find? p = (ds.find? p).map (kept gone) := by
  have hcomp : p ∘ kept gone = p := funext hp
  rw [List.find?_map, hcomp, find?_filter_of_find? fun d hd => by rw [h d hd]; rfl]

theorem find?_kept_of_forall {ds : List Cursor} {p : Cursor → Bool}
    (hp : ∀ d, p (kept gone d) = p d) (h : ∀ d, p d = true → gone d = false) :
    ((ds.filter (!gone ·)).map (kept gone)).find? p = (ds.find? p).map (kept gone) :=
  find?_kept hp fun d hd => h d (List.find?_some hd)

theorem filter_kept {ds : List Cursor} {p : Cursor → Bool} (hp : ∀ d, p (kept gone d) = p d)
    (h : ∀ d, p d = true → gone d = false) :
    ((ds.filter (!gone ·)).map (kept gone)).filter p = (ds.filter p).map (kept gone) := by
  have hcomp : p ∘ kept gone = p := funext hp
  rw [List.filter_map, hcomp, List.filter_filter]
  congr 1
  refine List.filter_congr fun d _ => ?_
  cases hd : p d with
  | false => rfl
  | true => rw [h d hd]; rfl

theorem filterMap_kept {ds : List Cursor} {g : Cursor → Option Cursor}
    (hg : ∀ d, g (kept gone d) = (g d).map (kept gone)) (h : ∀ d, gone d = true → g d = none) :
    ((ds.filter (!gone ·)).map (kept gone)).filterMap g = (ds.filterMap g).map (kept gone) := by
  rw [List.filterMap_map, List.filterMap_filter, List.map_filterMap]
  refine List.filterMap_congr fun d _ => ?_
  cases hd : gone d with
  | false => exact hg d
  | true => rw [h d hd]; rfl

/-- What stands behind the first node of a sort stands behind it in the pruned tree. -/
theorem dropWhile_kept {ds : List Cursor} {p : Cursor → Bool} (hp : ∀ d, p (kept gone d) = p d)
    (h : ∀ d, p d = false → gone d = false) :
    ((ds.filter (!gone ·)).map (kept gone)).dropWhile p =
      ((ds.dropWhile p).filter (!gone ·)).map (kept gone) := by
  induction ds with
  | nil => rfl
  | cons d ds ih =>
    cases hpd : p d with
    | true =>
      rw [List.dropWhile_cons_of_pos hpd, ← ih]
      cases hd : gone d with
      | true => rw [List.filter_cons_of_neg (by simp [hd])]
      | false =>
        rw [List.filter_cons_of_pos (by simp [hd]), List.map_cons,
          List.dropWhile_cons_of_pos (by rw [hp, hpd])]
    | false =>
      have hd := h d hpd
      rw [List.dropWhile_cons_of_neg (by simp [hpd]), List.filter_cons_of_pos (by simp [hd]),
        List.map_cons, List.dropWhile_cons_of_neg (by simp [hp, hpd])]

end Search

section Places

/-- A node is placed if it is among the children of its parent. -/
def Placed (c : Cursor) : Prop := ∀ p ∈ c.parent, c ∈ p.children

theorem placed_of_mem_children {c d : Cursor} (hd : d ∈ c.children) : d.Placed := by
  intro p hp
  rw [parent, ancestors_of_mem_children hd, List.head?_cons] at hp
  exact Option.some.inj hp ▸ hd

theorem placed_of_mem_subtree {t : Tree} {c : Cursor} (hc : c ∈ (root t).subtree) : c.Placed := by
  refine subtree_induction (motive := Placed) (fun p hp => ?_) (fun _ _ _ d hd => ?_) c hc
  · -- nothing is above the root
    cases hp
  · exact placed_of_mem_children hd

/-- Children of one node are at the same place only if they are the same. -/
theorem isAt_iff_of_mem_children {c d e : Cursor} (hd : d ∈ c.children) (he : e ∈ c.children) :
    d.isAt e = true ↔ d = e := by
  obtain ⟨i, hi, rfl⟩ := List.mem_mapIdx.mp hd
  obtain ⟨j, hj, rfl⟩ := List.mem_mapIdx.mp he
  constructor
  · intro h
    have hij : i = j := by simpa [isAt, place] using h
    subst hij
    rfl
  · intro h
    rw [h]
    simp [isAt]

variable {gone}

theorem kept_mem_children {c d : Cursor} (hd : d ∈ c.children) (hstay : gone d = false) :
    kept gone d ∈ (kept gone c).children := by
  rw [children_kept]
  exact List.mem_map_of_mem (List.mem_filter.mpr ⟨hd, by rw [hstay]; rfl⟩)

theorem isAt_kept_of_mem_children {c d e : Cursor} (hd : d ∈ c.children) (he : e ∈ c.children)
    (hdstay : gone d = false) (hestay : gone e = false) :
    (kept gone d).isAt (kept gone e) = d.isAt e := by
  have hnodup := (kept gone c).nodup_children
  rw [children_kept] at hnodup
  have hinj := List.inj_on_of_nodup_map hnodup
  rw [Bool.eq_iff_iff, isAt_iff_of_mem_children hd he,
    isAt_iff_of_mem_children (kept_mem_children hd hdstay) (kept_mem_children he hestay)]
  constructor
  · intro h
    exact hinj (List.mem_filter.mpr ⟨hd, by rw [hdstay]; rfl⟩)
      (List.mem_filter.mpr ⟨he, by rw [hestay]; rfl⟩) h
  · exact congrArg (kept gone)

variable (gone) in
theorem length_above_kept (c : Cursor) : (kept gone c).above.length = c.above.length := by
  obtain ⟨t, above⟩ := c
  change (keptAbove gone above).length = above.length
  induction above with
  | nil => rfl
  | cons level above ih => rw [keptAbove, List.length_cons, List.length_cons, ih]

/-- On a walk down, the node at the top is the only one at its place. -/
theorem isAt_kept_of_mem_preorder {c r : Cursor} (hc : c ∈ Descent.preorder r) :
    (kept gone c).isAt (kept gone r) = c.isAt r := by
  rcases eq_or_length_above_lt hc with rfl | hlt
  · simp [isAt]
  · rw [not_isAt_of_length hlt, not_isAt_of_length]
    rw [length_above_kept, length_above_kept]
    exact hlt

end Places

/-- Where only nodes go that nothing is below, a walk meets what stays, in the same order. -/
theorem preorder_kept {gone : Cursor → Bool}
    (hleaf : ∀ d, gone d = true → Descent.children d = []) {c : Cursor} (hc : gone c = false) :
    Descent.preorder (kept gone c) =
      ((Descent.preorder c).filter (!gone ·)).map (kept gone) := by
  induction c using Descent.descent_induction with
  | step c ih =>
    have hbelow : ∀ ds : List Cursor, (∀ d ∈ ds, d ∈ Descent.children c) →
        ((ds.filter (!gone ·)).map (kept gone)).flatMap Descent.preorder =
          ((ds.flatMap Descent.preorder).filter (!gone ·)).map (kept gone) := by
      intro ds hds
      induction ds with
      | nil => rfl
      | cons d ds ihds =>
        obtain ⟨hd, hds⟩ := List.forall_mem_cons.mp hds
        rw [List.flatMap_cons, List.filter_append, List.map_append, ← ihds hds]
        cases hgone : gone d with
        | true =>
          have hself : Descent.preorder d = [d] := by
            rw [Descent.preorder_eq, hleaf d hgone, List.flatMap_nil]
          simp [hself, hgone]
        | false =>
          rw [List.filter_cons_of_pos (by simp [hgone]), List.map_cons, List.flatMap_cons,
            ih d hd hgone]
    have hchildren : Descent.children (kept gone c) =
        ((Descent.children c).filter (!gone ·)).map (kept gone) := namedChildren_kept gone c
    rw [Descent.preorder_eq, Descent.preorder_eq c, hchildren, hbelow _ fun _ hd => hd,
      List.filter_cons_of_pos (by simp [hc]), List.map_cons]

end Cursor

end DeclScribe.Syntax
