import DeclScribe.Proofs.Describe.Walk

/-!
What a description depends on. It is made of a few answers of the node, of its parameters and of the
nodes above it; nodes of two trees that agree on these have the same description. Nodes that agree on
all but the types have descriptions that differ in types alone.
-/

namespace DeclScribe

/-- Parameters with their types, or without. -/
def Parameters.typed (types : Bool) (p : Parameters) : Parameters :=
  ⟨p.names, if types then p.types else []⟩

/-- A description with its types, or without. -/
def Description.typed (types : Bool) : Description → Description
  | method c as n t ps o text =>
    .method c as n (if types then t else none) (ps.typed types) o text
  | constructor c as ps o => .constructor c as (ps.typed types) o
  | lambda enclosing t ps o =>
    .lambda (enclosing.typed types) (if types then t else none) (ps.typed types) o

@[simp] theorem Parameters.typed_true (p : Parameters) : p.typed true = p := rfl

@[simp] theorem Description.typed_true (d : Description) : d.typed true = d := by
  induction d with
  | method | constructor => rfl
  | lambda enclosing t ps o ih => rw [typed, ih, Parameters.typed_true, if_pos rfl]

namespace Describe

open SourceNode

/-- Two nodes give the same answers, as far as descriptions under the settings read them, with types
or without. The type and the parameters count for methods and lambdas alone. -/
structure Agrees {ν μ : Type} [SourceNode ν] [SourceNode μ] (settings : AttributeSettings)
    (types : Bool) (n : ν) (m : μ) : Prop where
  kind_eq : kind m = kind n
  name_eq : name m = name n
  qualifiedName_eq : qualifiedName m = qualifiedName n
  hasModifier_eq : ∀ k ∈ settings.recognized, hasModifier m k = hasModifier n k
  isConstructor_eq : isConstructor m = isConstructor n
  isInterface_eq : isInterface m = isInterface n
  typeText_eq : types = true → IsDeclaration n → typeText m = typeText n
  parameters_eq : IsDeclaration n →
    (parameterPairs (parameters m)).typed types = (parameterPairs (parameters n)).typed types
  text_eq : text m = text n
  origin_eq : origin m = origin n
  navigationOffset_eq : navigationOffset m = navigationOffset n

/-- A map between nodes under which the nodes of a sort, and so all nodes above them, agree with
their images. -/
structure Mirrors {ν μ : Type} [SourceNode ν] [SourceNode μ] (settings : AttributeSettings)
    (types : Bool) (sort : ν → Prop) (image : ν → μ) : Prop where
  above : ∀ n, sort n → ∀ a ∈ ancestors n, sort a
  ancestors_eq : ∀ n, sort n → ancestors (image n) = (ancestors n).map image
  agrees : ∀ n, sort n → Agrees settings types n (image n)

namespace Mirrors

variable {ν μ : Type} [SourceNode ν] [SourceNode μ] {settings : AttributeSettings} {types : Bool}
  {sort : ν → Prop} {image : ν → μ} (h : Mirrors settings types sort image) {n : ν} (hn : sort n)
include h hn

theorem nearest_eq (k : NodeKind) : nearest k (image n) = (nearest k n).map image := by
  apply nearest_image (h.ancestors_eq n hn)
  intro a ha
  exact (h.agrees a (h.above n hn a ha)).kind_eq

theorem sort_of_nearest {k : NodeKind} {a : ν} (ha : nearest k n = some a) : sort a :=
  h.above n hn a (List.mem_of_find?_eq_some ha)

theorem labelledClass_eq : labelledClass (image n) = (labelledClass n).map image := by
  unfold labelledClass
  rw [(h.agrees n hn).kind_eq]
  split
  · rfl
  · exact h.nearest_eq hn .type

theorem labels_eq :
    labels settings (labelledClass (image n)) = labels settings (labelledClass n) := by
  rw [h.labelledClass_eq hn]
  cases hc : labelledClass n with
  | none => rfl
  | some c =>
    have hsort : sort c := by
      unfold labelledClass at hc
      split at hc
      · exact Option.some.inj hc ▸ hn
      · exact h.sort_of_nearest hn hc
    have hagrees := h.agrees c hsort
    have hexternal : isExternal settings (some (image c)) = isExternal settings (some c) := by
      simp only [isExternal, Option.bind_some, hagrees.origin_eq]
    have hinterface : isInterfaceDeclaration (some (image c)) = isInterfaceDeclaration (some c) :=
      hagrees.isInterface_eq
    rw [Option.map_some, labels, labels, hexternal, hinterface]

theorem attributes_eq : attributes settings (image n) = attributes settings n := by
  unfold attributes
  rw [h.labels_eq hn]
  congr 1
  exact List.filter_congr fun k hk => (h.agrees n hn).hasModifier_eq k hk

theorem describeClass_eq : describeClass settings (image n) = describeClass settings n := by
  rw [describeClass, describeClass, (h.agrees n hn).qualifiedName_eq, h.attributes_eq hn]

/-- The type of a declaration, as far as types count. -/
theorem typeText_eq (hdecl : IsDeclaration n) :
    (if types then typeText (image n) else none) = if types then typeText n else none := by
  cases htypes : types with
  | true => rw [(h.agrees n hn).typeText_eq htypes hdecl]
  | false => rfl

theorem describeMethod_eq (hkind : kind n = .method) (offset : Nat) :
    (describeMethod settings (image n) offset).typed types =
      (describeMethod settings n offset).typed types := by
  have hagrees := h.agrees n hn
  have howner : (containingClass (image n)).map (describeClass settings) =
      (containingClass n).map (describeClass settings) := by
    unfold containingClass
    rw [h.nearest_eq hn, Option.map_map]
    cases hc : nearest .type n with
    | none => rfl
    | some c => exact congrArg some (h.describeClass_eq (h.sort_of_nearest hn hc))
  unfold describeMethod
  rw [howner, hagrees.isConstructor_eq, h.attributes_eq hn, hagrees.name_eq, hagrees.text_eq]
  cases isConstructor n with
  | true => simp only [if_true, Description.typed, hagrees.parameters_eq (Or.inl hkind)]
  | false =>
    simp only [Bool.false_eq_true, if_false, Description.typed, h.typeText_eq hn (Or.inl hkind),
      hagrees.parameters_eq (Or.inl hkind)]

theorem describeLambda_eq (hkind : kind n = .lambda) (offset : Nat) :
    (describeLambda settings (image n) offset).map (Description.typed types) =
      (describeLambda settings n offset).map (Description.typed types) := by
  have hagrees := h.agrees n hn
  unfold describeLambda containingMethod
  rw [h.nearest_eq hn]
  cases hm : nearest .method n with
  | none => rfl
  | some m =>
    have hmethod : kind m = .method := by simpa using List.find?_some hm
    simp only [Option.map_some, Except.map, Description.typed,
      h.describeMethod_eq (h.sort_of_nearest hn hm) hmethod, h.typeText_eq hn (Or.inr hkind),
      hagrees.parameters_eq (Or.inr hkind)]

theorem describe_eq (offset : Nat) :
    (describe settings (image n) offset).map (Option.map (Description.typed types)) =
      (describe settings n offset).map (Option.map (Description.typed types)) := by
  unfold describe
  rw [(h.agrees n hn).kind_eq]
  cases hkind : kind n with
  | method => exact congrArg (Except.ok ∘ some) (h.describeMethod_eq hn hkind offset)
  | lambda =>
    have hsome (x : Except DescribeError Description) :
        (x.map some).map (Option.map (Description.typed types)) =
          (x.map (Description.typed types)).map some := by
      cases x <;> rfl
    simp only [hsome, h.describeLambda_eq hn hkind offset]
  | type | parameter | other => rfl

/-- The records of a node and of its image differ in types at most, and only if types do not count. -/
theorem record?_eq : (record? settings (image n)).map (Description.typed types) =
    (record? settings n).map (Description.typed types) := by
  have hjoin (x : Except DescribeError (Option Description)) :
      x.toOption.join.map (Description.typed types) =
        (x.map (Option.map (Description.typed types))).toOption.join := by
    cases x <;> rfl
  unfold record? describeHere
  rw [(h.agrees n hn).navigationOffset_eq, hjoin, h.describe_eq hn, ← hjoin]

end Mirrors

end Describe

end DeclScribe
