import DeclScribe.Describe
import Mathlib.Data.List.Forall2

/-!
What describing one node comes to. A method has a description, a lambda has one where a method
encloses it and an error where none does, and all other nodes have nothing to describe.
-/

namespace DeclScribe

namespace SourceNode

variable {ν : Type} [SourceNode ν]

/-- The nodes that descriptions are about. -/
def IsDeclaration (n : ν) : Prop := kind n = .method ∨ kind n = .lambda

/-- A lambda needs a method strictly above it. -/
def Enclosed (n : ν) : Prop := kind n = .lambda → ∃ m ∈ ancestors n, kind m = .method

instance (n : ν) : Decidable (IsDeclaration n) :=
  inferInstanceAs (Decidable (kind n = .method ∨ kind n = .lambda))

instance (n : ν) : Decidable (Enclosed n) :=
  inferInstanceAs (Decidable (kind n = .lambda → ∃ m ∈ ancestors n, kind m = .method))

theorem isDeclaration_of_not_enclosed {n : ν} (h : ¬ Enclosed n) : IsDeclaration n :=
  Or.inr (Classical.not_imp.mp h).1

theorem enclosed_of_not_isDeclaration {n : ν} (h : ¬ IsDeclaration n) : Enclosed n :=
  fun hl => absurd (Or.inr hl) h

theorem not_enclosed_iff {n : ν} :
    ¬ Enclosed n ↔ kind n = .lambda ∧ containingMethod n = none := by
  simp [Enclosed, containingMethod, nearest]

/-- The method nearest above a node: whatever else lies between the two, no other method does. -/
def IsNearestMethod (m n : ν) : Prop :=
  ∃ between above, ancestors n = between ++ m :: above ∧ kind m = .method ∧
    ∀ a ∈ between, kind a ≠ .method

theorem containingMethod_eq_some_iff {m n : ν} :
    containingMethod n = some m ↔ IsNearestMethod m n := by
  rw [containingMethod, nearest, List.find?_eq_some_iff_append]
  simp only [decide_eq_true_eq, Bool.not_eq_true', decide_eq_false_iff_not]
  constructor
  · rintro ⟨hm, between, above, hsplit, hbetween⟩
    exact ⟨between, above, hsplit, hm, hbetween⟩
  · rintro ⟨between, above, hsplit, hm, hbetween⟩
    exact ⟨hm, between, above, hsplit, hbetween⟩

/-- A map that goes on with what is above a node, and keeps kinds there, keeps what is nearest. -/
theorem nearest_image {μ : Type} [SourceNode μ] {image : ν → μ} {n : ν}
    (hancestors : ancestors (image n) = (ancestors n).map image)
    (hkind : ∀ a ∈ ancestors n, kind (image a) = kind a) (k : NodeKind) :
    nearest k (image n) = (nearest k n).map image := by
  have hfilter : ((ancestors n).map image).filter (fun a => kind a = k) =
      ((ancestors n).filter fun a => kind a = k).map image := by
    rw [List.filter_map]
    congr 1
    refine List.filter_congr fun a ha => ?_
    rw [Function.comp_apply, hkind a ha]
  unfold nearest
  rw [hancestors, ← List.head?_filter, ← List.head?_filter, hfilter, List.head?_map]

end SourceNode

namespace Describe

open SourceNode

variable {ν : Type} [SourceNode ν] (settings : AttributeSettings)

theorem offset_describeMethod (m : ν) (offset : Nat) :
    (describeMethod settings m offset).offset = offset := by
  unfold describeMethod
  split <;> rfl

theorem owner_describeMethod (m : ν) (offset : Nat) : (describeMethod settings m offset).owner =
    (containingClass m).map (describeClass settings) := by
  unfold describeMethod
  split <;> rfl

/-- Which nodes have a description, and what it is made of. -/
theorem describe_eq_some_iff {n : ν} {offset : Nat} {d : Description} :
    describe settings n offset = .ok (some d) ↔
      (kind n = .method ∧ d = describeMethod settings n offset) ∨
        (kind n = .lambda ∧ ∃ m, containingMethod n = some m ∧
          d = .lambda (describeMethod settings m offset) (typeText n)
            (parameterPairs (parameters n)) offset) := by
  unfold describe
  cases hkind : kind n with
  | method => simp [eq_comm]
  | lambda => cases hm : containingMethod n <;> simp [describeLambda, hm, Except.map, eq_comm]
  | type | parameter | other => simp

theorem describe_of_not_isDeclaration {n : ν} (h : ¬ IsDeclaration n) (offset : Nat) :
    describe settings n offset = .ok none := by
  obtain ⟨hm, hl⟩ := not_or.mp h
  unfold describe
  split
  · exact absurd ‹kind n = .method› hm
  · exact absurd ‹kind n = .lambda› hl
  · rfl

theorem describe_of_not_enclosed {n : ν} (h : ¬ Enclosed n) (offset : Nat) :
    describe settings n offset = .error (.noEnclosingMethod offset) := by
  obtain ⟨hl, hm⟩ := not_enclosed_iff.mp h
  simp [describe, describeLambda, hl, hm, Except.map]

theorem exists_describe {n : ν} (hd : IsDeclaration n) (he : Enclosed n) (offset : Nat) :
    ∃ d, describe settings n offset = .ok (some d) ∧ d.offset = offset := by
  rcases hd with hm | hl
  · exact ⟨describeMethod settings n offset, by simp only [describe, hm],
      offset_describeMethod settings n offset⟩
  · obtain ⟨m, hm⟩ : ∃ m, containingMethod n = some m := by
      refine Option.ne_none_iff_exists'.mp fun hnone => ?_
      exact not_enclosed_iff.mpr ⟨hl, hnone⟩ he
    refine ⟨.lambda (describeMethod settings m offset) (typeText n)
      (parameterPairs (parameters n)) offset, ?_, rfl⟩
    simp only [describe, hl, describeLambda, hm, Except.map]

/-- The three outcomes of describing a node. -/
theorem describe_cases (n : ν) (offset : Nat) :
    (¬ IsDeclaration n ∧ describe settings n offset = .ok none) ∨
      (IsDeclaration n ∧ Enclosed n ∧
        ∃ d, describe settings n offset = .ok (some d) ∧ d.offset = offset) ∨
      (¬ Enclosed n ∧ describe settings n offset = .error (.noEnclosingMethod offset)) := by
  by_cases he : Enclosed n
  · by_cases hd : IsDeclaration n
    · exact Or.inr (Or.inl ⟨hd, he, exists_describe settings hd he offset⟩)
    · exact Or.inl ⟨hd, describe_of_not_isDeclaration settings hd offset⟩
  · exact Or.inr (Or.inr ⟨he, describe_of_not_enclosed settings he offset⟩)

theorem describe_eq_error_iff {n : ν} {offset : Nat} {e : DescribeError} :
    describe settings n offset = .error e ↔ ¬ Enclosed n ∧ e = .noEnclosingMethod offset := by
  rcases describe_cases settings n offset with ⟨hd, h⟩ | ⟨-, he, d, h, -⟩ | ⟨he, h⟩
  · simp [h, enclosed_of_not_isDeclaration hd]
  · simp [h, he]
  · simp [h, he, eq_comm]

theorem describe_eq_none_iff {n : ν} {offset : Nat} :
    describe settings n offset = .ok none ↔ ¬ IsDeclaration n := by
  rcases describe_cases settings n offset with ⟨hd, h⟩ | ⟨hd, -, d, h, -⟩ | ⟨he, h⟩
  · simp [h, hd]
  · simp [h, hd]
  · simp [h, isDeclaration_of_not_enclosed he]

/-- The description of a node, where it has one. -/
def record? (n : ν) : Option Description := (describeHere settings n).toOption.join

theorem record?_eq_some_iff {n : ν} {d : Description} :
    record? settings n = some d ↔ describeHere settings n = .ok (some d) := by
  unfold record?
  cases describeHere settings n with
  | error e => simp [Except.toOption]
  | ok here => cases here <;> simp [Except.toOption]

theorem record?_eq_none_iff {n : ν} :
    record? settings n = none ↔ ¬ (IsDeclaration n ∧ Enclosed n) := by
  unfold record? describeHere
  rcases describe_cases settings n (navigationOffset n) with
    ⟨hd, h⟩ | ⟨hd, he, d, h, -⟩ | ⟨he, h⟩
  · simp [h, hd, Except.toOption]
  · simp [h, hd, he, Except.toOption]
  · simp [h, he, Except.toOption]

theorem isDeclaration_and_enclosed_of_record? {n : ν} {d : Description}
    (h : record? settings n = some d) : IsDeclaration n ∧ Enclosed n := by
  by_contra hno
  rw [(record?_eq_none_iff settings).mpr hno] at h
  cases h

theorem offset_of_record? {n : ν} {d : Description} (h : record? settings n = some d) :
    d.offset = navigationOffset n := by
  obtain ⟨hd, he⟩ := isDeclaration_and_enclosed_of_record? settings h
  obtain ⟨d', hok, hoffset⟩ := exists_describe settings hd he (navigationOffset n)
  have hdd : d' = d := Option.some.inj (((record?_eq_some_iff settings).mpr hok).symm.trans h)
  exact hdd ▸ hoffset

end Describe

end DeclScribe
