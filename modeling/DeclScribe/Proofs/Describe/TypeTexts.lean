import DeclScribe.Caret
import DeclScribe.Proofs.Describe.Readable
import DeclScribe.Proofs.Text.TypeText

/-!
The types that records tell. Each comes from the type text of a node, and both languages put type
texts together from canonical pieces, so all types in records are canonical.
-/

namespace DeclScribe

open SourceNode Descent Describe

namespace Syntax

open Text

theorem tight_typeTextOf (source : String) (c : Cursor) : Tight (typeTextOf source c).toList :=
  tight_canonicalType (c.text source)

theorem tight_unresolvedType : Tight unresolvedType.toList :=
  tight_of_all (by decide +kernel)

theorem Java.tight_typeText {source : String} {c : Cursor} {type : String}
    (h : Java.typeText source c = some type) : Tight type.toList := by
  unfold Java.typeText at h
  split at h
  case h_1 | h_2 =>
    -- the type and the dimensions behind the name, one directly after the other
    obtain ⟨d, -, hd⟩ := Option.bind_eq_some_iff.mp h
    have hdimensions :
        Tight (((c.childByField .dimensions).map (typeTextOf source)).getD "").toList := by
      cases c.childByField .dimensions with
      | none => exact tight_nil
      | some dimensions => exact tight_typeTextOf source dimensions
    rw [← Option.some.inj hd, String.toList_append]
    exact (tight_typeTextOf source d).append hdimensions
  case h_3 =>
    obtain ⟨d, -, hd⟩ := Option.bind_eq_some_iff.mp h
    have hdots : Tight "...".toList := tight_of_all (by decide +kernel)
    rw [← Option.some.inj hd, String.toList_append]
    exact (tight_typeTextOf source d).append hdots
  case h_4 =>
    split at h
    · exact Option.some.inj h ▸ tight_unresolvedType
    · cases h
  case h_5 => cases h

theorem Kotlin.tight_writtenType {source : String} {c : Cursor} {type : String}
    (h : Kotlin.writtenType source c = some type) : Tight type.toList := by
  obtain ⟨d, -, rfl⟩ := Option.map_eq_some_iff.mp h
  exact tight_typeTextOf source d

theorem Kotlin.tight_typeText {source : String} {c : Cursor} {type : String}
    (h : Kotlin.typeText source c = some type) : Tight type.toList := by
  unfold Kotlin.typeText at h
  split at h
  case h_1 =>
    split at h
    · next written hwritten =>
      cases h
      exact Kotlin.tight_writtenType hwritten
    · split at h
      · cases h
      · have hunit : Tight "Unit".toList := tight_of_all (by decide +kernel)
        exact Option.some.inj h ▸ hunit
  case h_2 => exact Kotlin.tight_writtenType h
  case h_3 | h_4 | h_5 =>
    rw [← Option.some.inj h]
    cases hwritten : Kotlin.writtenType source c with
    | none => exact tight_unresolvedType
    | some written => exact Kotlin.tight_writtenType hwritten
  case h_6 => exact Option.some.inj h ▸ tight_unresolvedType
  case h_7 =>
    split at h
    · exact Option.some.inj h ▸ tight_unresolvedType
    · cases h

end Syntax

theorem FileNode.tight_typeText {n : FileNode} {type : String} (h : typeText n = some type) :
    Text.Tight type.toList := by
  obtain ⟨f, c⟩ := n
  change f.language.dialect.typeText f.source c = some type at h
  cases hlanguage : f.language with
  | java =>
    rw [hlanguage] at h
    exact Syntax.Java.tight_typeText h
  | kotlin =>
    rw [hlanguage] at h
    exact Syntax.Kotlin.tight_typeText h

/-- The types of a description are canonical, at every level of it. -/
structure Description.HasCanonicalTypes (d : Description) : Prop where
  parameters : ∀ e ∈ d.levels, ∀ type ∈ e.parameters.types, Text.IsCanonical type
  returnType : ∀ e ∈ d.levels, ∀ type, e.returnType = some type → Text.IsCanonical type

namespace Describe

variable {ν : Type} [SourceNode ν] (settings : AttributeSettings)

theorem types_parameterPairs {P : String → Prop} (hempty : P "")
    (htypes : ∀ (n : ν) (type : String), typeText n = some type → P type) (ps : List ν) :
    ∀ type ∈ (parameterPairs ps).types, P type := by
  intro type htype
  simp only [parameterPairs, Parameters.ofPairs, List.map_map, List.mem_map] at htype
  obtain ⟨p, -, rfl⟩ := htype
  change P ((typeText p).getD "")
  cases hp : typeText p with
  | none => exact hempty
  | some type => exact htypes p type hp

theorem returnType_describeMethod {m : ν} {offset : Nat} {type : String}
    (h : (describeMethod settings m offset).returnType = some type) : typeText m = some type := by
  unfold describeMethod at h
  split at h
  · cases h
  · exact h

/-- What holds of the empty text and of every type text of a node holds of every type in a
description. -/
theorem types_of_describe {P : String → Prop} (hempty : P "")
    (htypes : ∀ (n : ν) (type : String), typeText n = some type → P type) {n : ν} {offset : Nat}
    {d : Description} (h : describe settings n offset = .ok (some d)) :
    ∀ e ∈ d.levels, (∀ type ∈ e.parameters.types, P type) ∧
      ∀ type, e.returnType = some type → P type := by
  have hmethod (m : ν) : ∀ e ∈ (describeMethod settings m offset).levels,
      (∀ type ∈ e.parameters.types, P type) ∧ ∀ type, e.returnType = some type → P type := by
    rw [levels_describeMethod, List.forall_mem_singleton, parameters_describeMethod]
    refine ⟨types_parameterPairs hempty htypes (parameters m), ?_⟩
    intro type htype
    exact htypes m type (returnType_describeMethod settings htype)
  rcases (describe_eq_some_iff settings).mp h with ⟨-, rfl⟩ | ⟨-, m, -, rfl⟩
  · exact hmethod n
  · rw [Description.levels_lambda, List.forall_mem_cons]
    refine ⟨⟨types_parameterPairs hempty htypes (parameters n), ?_⟩, hmethod m⟩
    intro type htype
    exact htypes n type htype

end Describe

theorem FileNode.hasCanonicalTypes_of_describe {settings : AttributeSettings} {n : FileNode}
    {offset : Nat} {d : Description} (h : describe settings n offset = .ok (some d)) :
    d.HasCanonicalTypes := by
  have hempty : Text.IsCanonical "" := Text.isCanonical_of_tight Text.tight_nil
  have htypes : ∀ (m : FileNode) (type : String), typeText m = some type →
      Text.IsCanonical type := by
    intro m type hm
    exact Text.isCanonical_of_tight (FileNode.tight_typeText hm)
  have hlevels := types_of_describe settings hempty htypes h
  exact ⟨fun e he => (hlevels e he).1, fun e he => (hlevels e he).2⟩

/-- Every type in a record of a source file is canonical, on whatever way the record is made, and so
are the types of the methods that records of lambdas enclose: making it canonical again leaves it as
it is, and the only white space in it is single spaces between word characters. -/
theorem types_of_records_are_canonical (settings : AttributeSettings) :
    (∀ (n : FileNode) (offset : Nat) (d : Description),
      describe settings n offset = .ok (some d) → d.HasCanonicalTypes) ∧
      (∀ (n : FileNode) (ds : List Description), describeAll settings n = .ok ds →
        ∀ d ∈ ds, d.HasCanonicalTypes) ∧
      (∀ f : SourceFile, ∀ d ∈ f.descriptions settings, d.HasCanonicalTypes) ∧
      ∀ (f : SourceFile) (offset : Nat) (d : Description),
        f.describeAt settings offset = .ok (some d) → d.HasCanonicalTypes := by
  have hlisted : ∀ (n : FileNode), ∀ d ∈ listAll settings n, d.HasCanonicalTypes := by
    intro n d hd
    rw [listAll_eq_filterMap] at hd
    obtain ⟨m, -, hm⟩ := List.mem_filterMap.mp hd
    exact FileNode.hasCanonicalTypes_of_describe ((record?_eq_some_iff settings).mp hm)
  refine ⟨?_, ?_, ?_, ?_⟩
  · intro n offset d h
    exact FileNode.hasCanonicalTypes_of_describe h
  · intro n ds h
    rw [((describeAll_eq_ok_iff settings).mp h).2]
    exact hlisted n
  · intro f
    exact hlisted f.root
  · intro f offset d h
    obtain ⟨n, -, hn⟩ := (SourceFile.describeAt_eq_some_iff settings).mp h
    exact FileNode.hasCanonicalTypes_of_describe hn

/-- A Java method with spaces in its type and dimensions behind its parameters, a parameter with
dimensions behind its name, and one of variable arity. -/
def gridFile : SourceFile where
  path := "G.java"
  source := "class G \x7b List< ? super T> q(int x[], S ... r)[] \x7b\x7d \x7d"
  language := .java
  tree :=
    .node ⟨"program", true, 0, 53, []⟩ [.node ⟨"class_declaration", true, 0, 53, []⟩ [
      .leaf ⟨"class", false, 0, 5, []⟩,
      .leaf ⟨"identifier", true, 6, 7, [.name]⟩,
      .node ⟨"class_body", true, 8, 53, [.body]⟩ [
        .leaf ⟨"\x7b", false, 8, 9, []⟩,
        .node ⟨"method_declaration", true, 10, 51, []⟩ [
          .leaf ⟨"generic_type", true, 10, 26, [.type]⟩,
          .leaf ⟨"identifier", true, 27, 28, [.name]⟩,
          .node ⟨"formal_parameters", true, 28, 46, [.parameters]⟩ [
            .leaf ⟨"(", false, 28, 29, []⟩,
            .node ⟨"formal_parameter", true, 29, 36, []⟩ [
              .leaf ⟨"integral_type", true, 29, 32, [.type]⟩,
              .leaf ⟨"identifier", true, 33, 34, [.name]⟩,
              .leaf ⟨"dimensions", true, 34, 36, [.dimensions]⟩],
            .leaf ⟨",", false, 36, 37, []⟩,
            .node ⟨"spread_parameter", true, 38, 45, []⟩ [
              .leaf ⟨"type_identifier", true, 38, 39, []⟩,
              .leaf ⟨"...", false, 40, 43, []⟩,
              .node ⟨"variable_declarator", true, 44, 45, []⟩ [
                .leaf ⟨"identifier", true, 44, 45, [.name]⟩]],
            .leaf ⟨")", false, 45, 46, []⟩],
          .leaf ⟨"dimensions", true, 46, 48, [.dimensions]⟩,
          .node ⟨"block", true, 49, 51, [.body]⟩ [
            .leaf ⟨"\x7b", false, 49, 50, []⟩,
            .leaf ⟨"\x7d", false, 50, 51, []⟩]],
        .leaf ⟨"\x7d", false, 52, 53, []⟩]]]

/-- Its record tells three types that are each put together from pieces. -/
theorem types_of_records_are_canonical_gridFile :
    ∃ d, gridFile.descriptions {} = [d] ∧ d.parameters.types = ["int[]", "S..."] ∧
      d.returnType = some "List<? super T>[]" ∧ d.HasCanonicalTypes := by
  obtain ⟨d, hd⟩ : ∃ d, gridFile.descriptions {} = [d] := by
    rw [SourceFile.descriptions, listAll_eq_filterMap, SourceFile.preorder_root_eq_walk]
    exact ⟨_, rfl⟩
  have htypes : (gridFile.descriptions {}).map (fun d => (d.parameters.types, d.returnType)) =
      [(["int[]", "S..."], some "List<? super T>[]")] := by
    rw [SourceFile.descriptions, listAll_eq_filterMap, SourceFile.preorder_root_eq_walk]
    decide +kernel
  rw [hd] at htypes
  obtain ⟨hparameters, hreturn⟩ := Prod.mk.inj (List.cons.inj htypes).1
  refine ⟨d, hd, hparameters, hreturn, ?_⟩
  exact (types_of_records_are_canonical {}).2.2.1 gridFile d (hd ▸ List.mem_singleton_self d)

end DeclScribe
