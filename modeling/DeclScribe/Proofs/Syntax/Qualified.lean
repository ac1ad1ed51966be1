import DeclScribe.Proofs.Syntax.Nesting
import DeclScribe.Syntax.Dialect

/-!
Qualified names. What the nodes above a class give to its qualified name is gathered upwards, so
what is gathered from a class on is what the qualified name of that class is made of.
-/

namespace DeclScribe.Syntax

namespace Cursor

/-- What lies between a node of a tree and a node above it is strictly inside the tree. -/
theorem mem_inside_of_mem_between {t : Tree} {c d : Cursor} {between above : List Cursor}
    (hc : c ∈ (root t).subtree) (hsplit : c.ancestors = between ++ d :: above) :
    ∀ a ∈ between, a ∈ (root t).inside := by
  obtain ⟨inner, hway, hinner⟩ := exists_way_up hc
  have hlast : c :: (between ++ (d :: above).dropLast) = inner := by
    have hdrop := congrArg List.dropLast hway
    rw [hsplit, ← List.cons_append, List.dropLast_append_cons] at hdrop
    exact hdrop.trans (List.dropLast_concat (b := root t))
  intro a ha
  apply hinner a
  rw [← hlast]
  exact List.mem_cons_of_mem c (List.mem_append_left _ ha)

end Cursor

section

variable (kind : Cursor → NodeKind) (name package : Cursor → Option String)

/-- Below such a node no class has a qualified name. -/
def Hides (a : Cursor) : Prop :=
  kind a = .method ∨ kind a = .lambda ∨ (kind a = .type ∧ name a = none)

/-- Such a node is of no account for the names of what is below it, but for the package. -/
def Passes (a : Cursor) : Prop := kind a ≠ .type ∧ kind a ≠ .method ∧ kind a ≠ .lambda

variable {kind name package}

theorem outerNames_cons_of_hides {a : Cursor} {rest : List Cursor} (h : Hides kind name a) :
    outerNames kind name package (a :: rest) = none := by
  rcases h with h | h | ⟨h, hname⟩
  · simp [outerNames, h]
  · simp [outerNames, h]
  · simp [outerNames, h, hname]

theorem outerNames_cons_of_passes {a : Cursor} {rest : List Cursor} (h : Passes kind a) :
    outerNames kind name package (a :: rest) =
      (outerNames kind name package rest).map ((package a).toList ++ ·) := by
  obtain ⟨ht, hm, hl⟩ := h
  cases hk : kind a with
  | type => exact absurd hk ht
  | method => exact absurd hk hm
  | lambda => exact absurd hk hl
  | parameter | other =>
    simp only [outerNames, hk]
    cases outerNames kind name package rest <;> rfl

theorem outerNames_cons_of_type {a : Cursor} {rest : List Cursor} {s : String}
    (h : kind a = .type) (hs : name a = some s) :
    outerNames kind name package (a :: rest) =
      (outerNames kind name package rest).map (s :: (package a).toList ++ ·) := by
  simp only [outerNames, h, hs]
  cases outerNames kind name package rest <;> rfl

variable (kind name) in
/-- A node hides the names below it, passes them on, or is a class of a name. -/
theorem hides_or_passes_or_type (a : Cursor) :
    Hides kind name a ∨ Passes kind a ∨ (kind a = .type ∧ ∃ s, name a = some s) := by
  unfold Hides Passes
  cases kind a with
  | type => cases name a <;> simp
  | method | lambda | parameter | other => simp

theorem not_hides_of_passes {a : Cursor} (h : Passes kind a) : ¬ Hides kind name a := by
  rintro (hm | hl | ⟨ht, -⟩)
  · exact h.2.1 hm
  · exact h.2.2 hl
  · exact h.1 ht

theorem outerNames_eq_none_iff {as : List Cursor} :
    outerNames kind name package as = none ↔ ∃ a ∈ as, Hides kind name a := by
  induction as with
  | nil => simp [outerNames]
  | cons a as ih =>
    rw [List.exists_mem_cons_iff]
    rcases hides_or_passes_or_type kind name a with h | h | ⟨h, s, hs⟩
    · simp [outerNames_cons_of_hides h, h]
    · rw [outerNames_cons_of_passes h, Option.map_eq_none_iff, ih]
      simp [not_hides_of_passes h]
    · rw [outerNames_cons_of_type h hs, Option.map_eq_none_iff, ih]
      simp [Hides, h, hs]

/-- Nodes that pass names on give their packages alone. -/
theorem outerNames_append_of_passes {as rest : List Cursor} (h : ∀ a ∈ as, Passes kind a) :
    outerNames kind name package (as ++ rest) =
      (outerNames kind name package rest).map (as.filterMap package ++ ·) := by
  induction as with
  | nil => simp
  | cons a as ih =>
    obtain ⟨ha, has⟩ := List.forall_mem_cons.mp h
    rw [List.cons_append, outerNames_cons_of_passes ha, ih has, Option.map_map]
    congr 1
    funext outer
    cases hp : package a <;> simp [hp]

theorem outerNames_of_passes {as : List Cursor} (h : ∀ a ∈ as, Passes kind a) :
    outerNames kind name package as = some (as.filterMap package) := by
  have happend : outerNames kind name package (as ++ []) = _ := outerNames_append_of_passes h
  rw [List.append_nil] at happend
  simp [happend, outerNames]

theorem qualify_eq_some_iff {c : Cursor} {q : String} : qualify kind name package c = some q ↔
    ∃ s outer, name c = some s ∧ outerNames kind name package c.ancestors = some outer ∧
      q = ".".intercalate (outer.reverse ++ [s]) := by
  simp only [qualify, List.reverse_cons, Option.bind_eq_bind, Option.bind_eq_some_iff,
    Option.pure_def, Option.some.injEq]
  constructor
  · rintro ⟨s, hs, outer, houter, rfl⟩
    exact ⟨s, outer, hs, houter, rfl⟩
  · rintro ⟨s, outer, hs, houter, rfl⟩
    exact ⟨s, hs, outer, houter, rfl⟩

theorem qualify_eq_none_iff {c : Cursor} : qualify kind name package c = none ↔
    name c = none ∨ ∃ a ∈ c.ancestors, Hides kind name a := by
  have hnone : outerNames kind name package c.ancestors = none ↔ _ := outerNames_eq_none_iff
  rw [← hnone]
  unfold qualify
  cases name c <;> cases outerNames kind name package c.ancestors <;> simp

/-- A name behind names that are joined is joined to them as well. -/
theorem intercalate_concat {names : List String} (s : String) (h : names ≠ []) :
    ".".intercalate (names ++ [s]) = ".".intercalate names ++ "." ++ s := by
  rw [String.intercalate_append_of_ne_nil h (List.cons_ne_nil s []), String.intercalate_singleton]

/-- A class right within another one adds its name to the qualified name of that one, whatever
nodes that are neither classes nor methods nor lambdas lie between. -/
theorem qualify_of_nested {c d : Cursor} {between above : List Cursor} {s q : String}
    (hsplit : c.ancestors = between ++ d :: above) (hbetween : ∀ a ∈ between, Passes kind a)
    (hpackage : ∀ a ∈ between ++ [d], package a = none) (hd : kind d = .type)
    (hs : name c = some s) (hq : qualify kind name package d = some q) :
    qualify kind name package c = some (q ++ "." ++ s) := by
  obtain ⟨t, outer, ht, houter, rfl⟩ := qualify_eq_some_iff.mp hq
  have hnone : between.filterMap package = [] := by
    apply List.filterMap_eq_nil_iff.mpr
    intro a ha
    exact hpackage a (List.mem_append_left _ ha)
  -- what is gathered above `c` is the name of `d` and what is gathered above `d`
  have hgathered : outerNames kind name package c.ancestors = some (t :: outer) := by
    rw [hsplit, Cursor.ancestors_eq_of_split hsplit, outerNames_append_of_passes hbetween, hnone,
      outerNames_cons_of_type hd ht, houter, hpackage d (by simp)]
    rfl
  apply qualify_eq_some_iff.mpr
  refine ⟨s, t :: outer, hs, hgathered, ?_⟩
  rw [List.reverse_cons, intercalate_concat s (by simp)]

/-- Wherever names are gathered from below it, a class has a name, which is gathered. -/
theorem exists_name_mem_of_outerNames {as : List Cursor} {outer : List String}
    (h : outerNames kind name package as = some outer) {a : Cursor} (ha : a ∈ as)
    (hkind : kind a = .type) : ∃ s, name a = some s ∧ s ∈ outer := by
  induction as generalizing outer with
  | nil => cases ha
  | cons b as ih =>
    rcases hides_or_passes_or_type kind name b with hb | hb | ⟨hb, t, ht⟩
    · rw [outerNames_cons_of_hides hb] at h
      cases h
    · rw [outerNames_cons_of_passes hb] at h
      obtain ⟨rest, hrest, rfl⟩ := Option.map_eq_some_iff.mp h
      rcases List.mem_cons.mp ha with rfl | ha
      · exact absurd hkind hb.1
      · obtain ⟨s, hs, hmem⟩ := ih hrest ha
        exact ⟨s, hs, List.mem_append_right _ hmem⟩
    · rw [outerNames_cons_of_type hb ht] at h
      obtain ⟨rest, hrest, rfl⟩ := Option.map_eq_some_iff.mp h
      rcases List.mem_cons.mp ha with rfl | ha
      · exact ⟨t, ht, List.mem_cons_self⟩
      · obtain ⟨s, hs, hmem⟩ := ih hrest ha
        exact ⟨s, hs, List.mem_append_right _ hmem⟩

/-- The name of each class above a class is one of the parts of its qualified name, and not the last
one. -/
theorem exists_part_of_qualify {c a : Cursor} {q : String}
    (hq : qualify kind name package c = some q) (ha : a ∈ c.ancestors) (hkind : kind a = .type) :
    ∃ s before after, name a = some s ∧ after ≠ [] ∧
      q = ".".intercalate (before ++ s :: after) := by
  obtain ⟨own, outer, -, houter, rfl⟩ := qualify_eq_some_iff.mp hq
  obtain ⟨s, hs, hmem⟩ := exists_name_mem_of_outerNames houter ha hkind
  obtain ⟨before, after, hsplit⟩ := List.append_of_mem (List.mem_reverse.mpr hmem)
  refine ⟨s, before, after ++ [own], hs, by simp, ?_⟩
  rw [hsplit, List.append_assoc]
  rfl

/-- A class that is in no other one has the packages above it in front of its name. -/
theorem qualify_of_outermost {c : Cursor} {s : String} (hs : name c = some s)
    (habove : ∀ a ∈ c.ancestors, Passes kind a) :
    qualify kind name package c =
      some (".".intercalate ((c.ancestors.filterMap package).reverse ++ [s])) :=
  qualify_eq_some_iff.mpr ⟨s, _, hs, outerNames_of_passes habove, rfl⟩

end

end DeclScribe.Syntax
