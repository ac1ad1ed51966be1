import DeclScribe.Node.Descent
import Mathlib.Data.List.Flatten
import Mathlib.Data.List.Nodup

/-!
Walks down. A walk that takes the first node off a list and puts its children in front of the rest
meets the nodes in pre-order, so what it computes is a fold over the pre-order.
-/

namespace DeclScribe.Descent

variable {ν : Type} [Descent ν]

theorem descent_induction {motive : ν → Prop}
    (step : ∀ n, (∀ c ∈ children n, motive c) → motive n) (n : ν) : motive n :=
  wellFounded.induction n step

theorem mem_preorder {m n : ν} : m ∈ preorder n ↔ m = n ∨ ∃ c ∈ children n, m ∈ preorder c := by
  rw [preorder_eq]
  simp

theorem mem_preorder_self (n : ν) : n ∈ preorder n := mem_preorder.mpr (Or.inl rfl)

/-- What holds of the top node and passes from a node to its children holds of all nodes. -/
theorem preorder_induction {motive : ν → Prop} {r : ν} (top : motive r)
    (step : ∀ p ∈ preorder r, motive p → ∀ c ∈ children p, motive c) :
    ∀ n ∈ preorder r, motive n := by
  induction r using descent_induction with
  | step r ih =>
    intro n hn
    rcases mem_preorder.mp hn with rfl | ⟨c, hc, hnc⟩
    · exact top
    · have hsub : ∀ p ∈ preorder c, p ∈ preorder r := fun p hp =>
        mem_preorder.mpr (Or.inr ⟨c, hc, hp⟩)
      exact ih c hc (step r (mem_preorder_self r) top c hc)
        (fun p hp => step p (hsub p hp)) n hnc

theorem mem_preorder_trans {a b c : ν} (hb : b ∈ preorder a) (hc : c ∈ preorder b) :
    c ∈ preorder a := by
  induction a using descent_induction with
  | step a ih =>
    rcases mem_preorder.mp hb with rfl | ⟨d, hd, hbd⟩
    · exact hc
    · exact mem_preorder.mpr (Or.inr ⟨d, hd, ih d hd hbd⟩)

theorem mem_preorder_of_mem_children {p c : ν} (hc : c ∈ children p) : c ∈ preorder p :=
  mem_preorder.mpr (Or.inr ⟨c, hc, mem_preorder_self c⟩)

/-- A node below the top has a parent there. -/
theorem eq_or_exists_parent {r n : ν} (hn : n ∈ preorder r) :
    n = r ∨ ∃ p ∈ preorder r, n ∈ children p :=
  preorder_induction (motive := fun n => n = r ∨ ∃ p ∈ preorder r, n ∈ children p)
    (Or.inl rfl) (fun p hp _ _ hc => Or.inr ⟨p, hp, hc⟩) n hn

section Sublist

open scoped List

/-- Nodes stand in a walk from them in their own order. -/
theorem sublist_flatMap_preorder (ns : List ν) : ns <+ ns.flatMap preorder :=
  calc ns
    _ = ns.flatMap fun n => [n] := (List.flatMap_singleton' ns).symm
    _ <+ ns.flatMap preorder := List.Sublist.flatMap_right ns fun n _ =>
      List.singleton_sublist.mpr (mem_preorder_self n)

/-- A walk from further down is a part of the walk from the top. -/
theorem preorder_sublist {r n : ν} (hn : n ∈ preorder r) : preorder n <+ preorder r := by
  refine preorder_induction (motive := fun n => preorder n <+ preorder r)
    (List.Sublist.refl _) (fun p _ ih c hc => ?_) n hn
  have hbelow : preorder c <+ (children p).flatMap preorder := by
    rw [List.flatMap_def]
    exact List.sublist_flatten_of_mem (List.mem_map_of_mem hc)
  have hchild : preorder c <+ preorder p := by
    rw [preorder_eq p]
    exact hbelow.cons p
  exact hchild.trans ih

end Sublist

section Order

/-- Wherever a walk from several nodes meets a node, that node is one of them or its parent has
been met before. -/
theorem exists_parent_before_of_flatMap {ns : List ν}
    (hns : ∀ c ∈ ns, ∀ before after n, preorder c = before ++ n :: after →
      n = c ∨ ∃ p ∈ before, n ∈ children p)
    {before after : List ν} {n : ν} (h : ns.flatMap preorder = before ++ n :: after) :
    n ∈ ns ∨ ∃ p ∈ before, n ∈ children p := by
  induction ns generalizing before with
  | nil => simp at h
  | cons c ns ih =>
    have hrest (later : List ν) (hlater : ns.flatMap preorder = later ++ n :: after) :
        n ∈ c :: ns ∨ ∃ p ∈ later, n ∈ children p := by
      rcases ih (fun d hd => hns d (List.mem_cons_of_mem c hd)) hlater with hn | hp
      · exact Or.inl (List.mem_cons_of_mem c hn)
      · exact Or.inr hp
    rw [List.flatMap_cons] at h
    rcases List.append_eq_append_iff.mp h with ⟨later, hbefore, hlater⟩ | ⟨part, hc, hpart⟩
    · -- the node is met behind everything below `c`
      rcases hrest later hlater with hn | ⟨p, hp, hnp⟩
      · exact Or.inl hn
      · exact Or.inr ⟨p, hbefore ▸ List.mem_append_right _ hp, hnp⟩
    · cases part with
      | nil =>
        rcases hrest [] hpart.symm with hn | ⟨p, hp, -⟩
        · exact Or.inl hn
        · cases hp
      | cons m part =>
        obtain ⟨rfl, -⟩ := List.cons.inj hpart
        rcases hns c List.mem_cons_self _ _ _ hc with rfl | hp
        · exact Or.inl List.mem_cons_self
        · exact Or.inr hp

/-- Wherever a walk meets a node below the top, it has met a parent of that node before. -/
theorem exists_parent_before {r n : ν} {before after : List ν}
    (h : preorder r = before ++ n :: after) : n = r ∨ ∃ p ∈ before, n ∈ children p := by
  induction r using descent_induction generalizing before after n with
  | step r ih =>
    rw [preorder_eq] at h
    cases before with
    | nil => exact Or.inl (List.cons.inj h).1.symm
    | cons top before =>
      obtain ⟨rfl, hbelow⟩ := List.cons.inj h
      rcases exists_parent_before_of_flatMap
          (fun c hc before after n hsplit => ih c hc hsplit) hbelow with hn | ⟨p, hp, hnp⟩
      · exact Or.inr ⟨r, List.mem_cons_self, hn⟩
      · exact Or.inr ⟨p, List.mem_cons_of_mem r hp, hnp⟩

end Order

/-- A map that keeps the children of what is below a node keeps its pre-order. -/
theorem preorder_map_of_forall {μ : Type} [Descent μ] {f : μ → ν} {x : μ}
    (hf : ∀ y ∈ preorder x, children (f y) = (children y).map f) :
    preorder (f x) = (preorder x).map f := by
  induction x using descent_induction with
  | step x ih =>
    have hbelow : ∀ c ∈ children x, preorder (f c) = (preorder c).map f := by
      intro c hc
      apply ih c hc
      intro y hy
      exact hf y (mem_preorder.mpr (Or.inr ⟨c, hc, hy⟩))
    rw [preorder_eq, preorder_eq, hf x (mem_preorder_self x), List.map_cons, List.flatMap_map,
      List.map_flatMap]
    exact congrArg _ (List.flatMap_congr hbelow)

theorem flatMap_preorder_map {μ : Type} [Descent μ] {f : μ → ν} {ns : List μ}
    (hf : ∀ y ∈ ns.flatMap preorder, children (f y) = (children y).map f) :
    (ns.map f).flatMap preorder = (ns.flatMap preorder).map f := by
  rw [List.flatMap_map, List.map_flatMap]
  apply List.flatMap_congr
  intro c hc
  apply preorder_map_of_forall
  intro y hy
  exact hf y (List.mem_flatMap.mpr ⟨c, hc, hy⟩)

/-- A map that keeps children keeps pre-orders. -/
theorem preorder_map {μ : Type} [Descent μ] {f : μ → ν}
    (hf : ∀ x, children (f x) = (children x).map f) (x : μ) :
    preorder (f x) = (preorder x).map f :=
  preorder_map_of_forall fun y _ => hf y

section Acyclic

theorem length_preorder_lt {p c : ν} (hc : c ∈ children p) :
    (preorder c).length < (preorder p).length := by
  obtain ⟨before, after, hsplit⟩ := List.append_of_mem hc
  rw [preorder_eq p, hsplit]
  simp only [List.flatMap_append, List.flatMap_cons, List.length_cons, List.length_append]
  omega

theorem length_preorder_le {r n : ν} (hn : n ∈ preorder r) :
    (preorder n).length ≤ (preorder r).length :=
  preorder_induction (motive := fun n => (preorder n).length ≤ (preorder r).length)
    (Nat.le_refl _) (fun _ _ hp _ hc => Nat.le_trans (Nat.le_of_lt (length_preorder_lt hc)) hp) n hn

/-- No way down leads back. -/
theorem not_mem_preorder_child {p c : ν} (hc : c ∈ children p) : p ∉ preorder c := fun hp =>
  absurd (length_preorder_le hp) (Nat.not_le.mpr (length_preorder_lt hc))

/-- A map that keeps children, but for a leaf behind those of one node, keeps the pre-order, but for
that leaf behind all that is below the node. -/
theorem preorder_graft {μ : Type} [Descent μ] {f : μ → ν} {r p : μ} {x : ν}
    (hp : p ∈ preorder r) (hnodup : (preorder r).Nodup) (hx : children x = [])
    (hleaf : children (f p) = (children p).map f ++ [x])
    (hf : ∀ n ∈ preorder r, n ≠ p → children (f n) = (children n).map f) :
    ∃ before after, preorder r = before ++ preorder p ++ after ∧
      preorder (f r) = (before ++ preorder p).map f ++ x :: after.map f := by
  induction r using descent_induction with
  | step r ih =>
    have hkept {ns : List μ} (hns : ns.flatMap preorder ⊆ preorder r)
        (hnp : p ∉ ns.flatMap preorder) :
        (ns.map f).flatMap preorder = (ns.flatMap preorder).map f := by
      apply flatMap_preorder_map
      intro n hn
      apply hf n (hns hn)
      rintro rfl
      exact hnp hn
    rcases mem_preorder.mp hp with rfl | ⟨c, hc, hpc⟩
    · rw [preorder_eq, List.nodup_cons] at hnodup
      have hbelow : (children p).flatMap preorder ⊆ preorder p := by
        rw [preorder_eq p]
        exact List.subset_cons_self _ _
      refine ⟨[], [], by simp, ?_⟩
      rw [preorder_eq (f p), hleaf, List.flatMap_append, hkept hbelow hnodup.1, preorder_eq p]
      simp [preorder_eq x, hx]
    · have hrp : r ≠ p := by
        rintro rfl
        exact not_mem_preorder_child hc hpc
      -- the node is below one child alone, so the other children are kept as they are
      obtain ⟨front, back, hsplit⟩ := List.append_of_mem hc
      have hr : preorder r =
          r :: (front.flatMap preorder ++ (preorder c ++ back.flatMap preorder)) := by
        rw [preorder_eq, hsplit, List.flatMap_append, List.flatMap_cons]
      rw [hr, List.nodup_cons] at hnodup
      obtain ⟨-, hmiddle, hapart⟩ := List.nodup_append'.mp hnodup.2
      obtain ⟨hcnodup, -, hcapart⟩ := List.nodup_append'.mp hmiddle
      have hfront : front.flatMap preorder ⊆ preorder r := by
        intro n hn
        rw [hr]
        exact List.mem_cons_of_mem r (List.mem_append_left _ hn)
      have hback : back.flatMap preorder ⊆ preorder r := by
        intro n hn
        rw [hr]
        exact List.mem_cons_of_mem r (List.mem_append_right _ (List.mem_append_right _ hn))
      have hfrontKept := hkept hfront fun h => hapart h (List.mem_append_left _ hpc)
      have hbackKept := hkept hback fun h => hcapart hpc h
      obtain ⟨before, after, hold, hnew⟩ := ih c hc hpc hcnodup fun n hn =>
        hf n (mem_preorder.mpr (Or.inr ⟨c, hc, hn⟩))
      refine ⟨r :: front.flatMap preorder ++ before, after ++ back.flatMap preorder, ?_, ?_⟩
      · rw [hr, hold]
        simp
      · rw [preorder_eq, hf r (mem_preorder_self r) hrp, hsplit, List.map_append, List.map_cons,
          List.flatMap_append, List.flatMap_cons, hfrontKept, hbackKept, hnew]
        simp

end Acyclic

section Nodup

variable {r : ν} (up : ν → Option ν) (hup : ∀ p ∈ preorder r, ∀ c ∈ children p, up c = some p)
include hup

/-- Where nodes know their parents, two nodes above a third are above one another. -/
theorem mem_preorder_or_mem_preorder {a b n : ν} (ha : a ∈ preorder r) (hb : b ∈ preorder r)
    (hna : n ∈ preorder a) (hnb : n ∈ preorder b) : a ∈ preorder b ∨ b ∈ preorder a := by
  refine preorder_induction (motive := fun n => n ∈ preorder b → a ∈ preorder b ∨ b ∈ preorder a)
    Or.inl (fun p hp ih c hc hcb => ?_) n hna hnb
  -- on the way from `a` down: a node met below `b` is `b`, or its parent is below `b` as well
  rcases eq_or_exists_parent hcb with rfl | ⟨q, hq, hcq⟩
  · exact Or.inr (mem_preorder_trans hp (mem_preorder_of_mem_children hc))
  · have hpq : some p = some q :=
      (hup p (mem_preorder_trans ha hp) c hc).symm.trans (hup q (mem_preorder_trans hb hq) c hcq)
    rw [← Option.some.inj hpq] at hq
    exact ih hq

/-- What is below two children of one node is empty, unless they are the same child. -/
theorem disjoint_preorder_children {p c d : ν} (hp : p ∈ preorder r) (hc : c ∈ children p)
    (hd : d ∈ children p) (hne : c ≠ d) : (preorder c).Disjoint (preorder d) := by
  intro n hnc hnd
  -- a child that lies below another child would have a second parent
  have apart {a b : ν} (ha : a ∈ children p) (hb : b ∈ children p) (hab : a ≠ b) :
      a ∉ preorder b := by
    intro hmem
    rcases eq_or_exists_parent hmem with h | ⟨q, hq, haq⟩
    · exact hab h
    · have hbr : b ∈ preorder r := mem_preorder_trans hp (mem_preorder_of_mem_children hb)
      have hpq : some p = some q :=
        (hup p hp a ha).symm.trans (hup q (mem_preorder_trans hbr hq) a haq)
      rw [← Option.some.inj hpq] at hq
      exact not_mem_preorder_child hb hq
  have hcr := mem_preorder_trans hp (mem_preorder_of_mem_children hc)
  have hdr := mem_preorder_trans hp (mem_preorder_of_mem_children hd)
  rcases mem_preorder_or_mem_preorder up hup hcr hdr hnc hnd with h | h
  · exact apart hc hd hne h
  · exact apart hd hc hne.symm h

/-- Where nodes know their parents and no node has a child twice, a walk meets no node twice. -/
theorem nodup_preorder (hchildren : ∀ p ∈ preorder r, (children p).Nodup) :
    ∀ n ∈ preorder r, (preorder n).Nodup := by
  intro n
  induction n using descent_induction with
  | step n ih =>
    intro hn
    have hbelow : ∀ c ∈ children n, c ∈ preorder r := fun c hc =>
      mem_preorder_trans hn (mem_preorder_of_mem_children hc)
    rw [preorder_eq, List.nodup_cons, List.nodup_flatMap]
    refine ⟨?_, fun c hc => ih c hc (hbelow c hc), ?_⟩
    · rw [List.mem_flatMap]
      rintro ⟨c, hc, hnc⟩
      exact not_mem_preorder_child hc hnc
    · exact (hchildren n hn).imp_of_mem fun hc hd hne =>
        disjoint_preorder_children up hup hn hc hd hne

end Nodup

/-- A walk is a fold over the pre-order. -/
theorem walk_eq_foldr {β : Type} (visit : ν → β → β) (walk : List ν → β)
    (hcons : ∀ n rest, walk (n :: rest) = visit n (walk (children n ++ rest))) (ns : List ν) :
    walk ns = (ns.flatMap preorder).foldr visit (walk []) := by
  -- on the weight of the list, as a step may make the list itself longer
  induction h : totalWeight ns using Nat.strongRecOn generalizing ns with
  | ind w ih =>
    cases ns with
    | nil => rfl
    | cons n rest =>
      have hlt : totalWeight (children n ++ rest) < w := h ▸ totalWeight_children_lt n rest
      rw [hcons, ih _ hlt _ rfl, List.flatMap_cons, preorder_eq n, List.flatMap_append]
      rfl

end DeclScribe.Descent
