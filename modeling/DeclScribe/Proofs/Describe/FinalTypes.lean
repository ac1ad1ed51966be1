import DeclScribe.Proofs.Describe.Attributes
import DeclScribe.Proofs.Syntax.Modifiers

/-!
Final types in Kotlin. A type that nothing keeps open is final, and its record says so where that
keyword is recognized. The rule that functions of interfaces are open is applied to the types that
stand directly in an interface as well, so these are final only if that is written.
-/

namespace DeclScribe

open SourceNode Descent Describe Syntax

/-- The record of a class shows every recognized keyword that the class carries. -/
theorem Describe.mem_attributes_describeClass {ν : Type} [SourceNode ν]
    {settings : AttributeSettings} {c : ν} {keyword : String}
    (hrecognized : keyword ∈ settings.recognized) (hcarried : keyword ∈ modifiers c) :
    keyword ∈ (describeClass settings c).attributes := by
  rw [describeClass, attributes_eq_carried]
  exact List.mem_append_left _ (List.mem_filter.mpr ⟨hrecognized, decide_eq_true hcarried⟩)

/-- A class, an object or a companion object that is no interface and has no keyword that keeps it
open is final if that is written or if it does not stand directly in an interface. Its record then
has the keyword wherever it is recognized. -/
theorem final_of_type_that_is_not_open (n : FileNode) (hlanguage : n.file.language = .kotlin)
    (htype : n.cursor.kind ∈ ["class_declaration", "object_declaration", "companion_object"])
    (hinterface : isInterface n = false)
    (hopen : ∀ k ∈ Kotlin.opening, k ∉ Kotlin.writtenModifiers n.file.source n.cursor) :
    ("final" ∈ modifiers n ↔ "final" ∈ Kotlin.writtenModifiers n.file.source n.cursor ∨
        ¬ Kotlin.StandsInInterface n.cursor) ∧
      ∀ settings : AttributeSettings, "final" ∈ settings.recognized → "final" ∈ modifiers n →
        "final" ∈ (describeClass settings n).attributes := by
  have hkotlin : Dialect.kotlin = n.dialect := congrArg Language.dialect hlanguage.symm
  have hnotInterface : Kotlin.isInterface n.cursor = false := by
    rw [← hinterface]
    exact congrArg (Dialect.isInterface · n.cursor) hkotlin
  have hmodifiers : modifiers n = Kotlin.modifiers n.file.source n.cursor :=
    congrArg (Dialect.modifiers · n.file.source n.cursor) hkotlin.symm
  have hdeclares : Kotlin.Declares n.cursor ∧ Kotlin.isConstructor n.cursor = false := by
    generalize n.cursor = c at htype
    simp only [List.mem_cons, List.not_mem_nil, or_false] at htype
    rcases htype with hkind | hkind | hkind <;>
      simp [Kotlin.Declares, Kotlin.kind, Kotlin.isConstructor, Kotlin.typeKinds,
        Kotlin.constructorKinds, hkind]
  refine ⟨?_, fun settings hrecognized hfinal => mem_attributes_describeClass hrecognized hfinal⟩
  rw [hmodifiers, Kotlin.mem_modifiers_iff, Kotlin.implied_final_iff]
  constructor
  · rintro (hwritten | ⟨-, -, -, -, houtside, -⟩)
    · exact Or.inl hwritten
    · exact Or.inr houtside
  · intro h
    by_cases hwritten : "final" ∈ Kotlin.writtenModifiers n.file.source n.cursor
    · exact Or.inl hwritten
    · have houtside := h.resolve_left hwritten
      exact Or.inr ⟨hdeclares.1, hwritten, hdeclares.2, hnotInterface, houtside, hopen⟩

/-- An interface with a class in it that has a function and an object. -/
def nestedTypesFile : SourceFile where
  path := "src/I.kt"
  source := "interface I \x7b\n  class C \x7b\n    fun f() \x7b\x7d\n" ++
    "    object O \x7b fun g() \x7b\x7d \x7d\n  \x7d\n\x7d\n"
  language := .kotlin
  tree :=
    .node ⟨"source_file", true, 0, 75, []⟩ [
      .node ⟨"class_declaration", true, 0, 74, []⟩ [
        .leaf ⟨"interface", false, 0, 9, []⟩,
        .leaf ⟨"identifier", true, 10, 11, [.name]⟩,
        .node ⟨"class_body", true, 12, 74, []⟩ [
          .leaf ⟨"\x7b", false, 12, 13, []⟩,
          .node ⟨"class_declaration", true, 16, 72, []⟩ [
            .leaf ⟨"class", false, 16, 21, []⟩,
            .leaf ⟨"identifier", true, 22, 23, [.name]⟩,
            .node ⟨"class_body", true, 24, 72, []⟩ [
              .leaf ⟨"\x7b", false, 24, 25, []⟩,
              .node ⟨"function_declaration", true, 30, 40, []⟩ [
                .leaf ⟨"fun", false, 30, 33, []⟩,
                .leaf ⟨"identifier", true, 34, 35, [.name]⟩,
                .node ⟨"function_value_parameters", true, 35, 37, []⟩ [
                  .leaf ⟨"(", false, 35, 36, []⟩,
                  .leaf ⟨")", false, 36, 37, []⟩],
                .node ⟨"function_body", true, 38, 40, []⟩ [
                  .node ⟨"block", true, 38, 40, []⟩ [
                    .leaf ⟨"\x7b", false, 38, 39, []⟩,
                    .leaf ⟨"\x7d", false, 39, 40, []⟩]]],
              .node ⟨"object_declaration", true, 45, 68, []⟩ [
                .leaf ⟨"object", false, 45, 51, []⟩,
                .leaf ⟨"identifier", true, 52, 53, [.name]⟩,
                .node ⟨"class_body", true, 54, 68, []⟩ [
                  .leaf ⟨"\x7b", false, 54, 55, []⟩,
                  .node ⟨"function_declaration", true, 56, 66, []⟩ [
                    .leaf ⟨"fun", false, 56, 59, []⟩,
                    .leaf ⟨"identifier", true, 60, 61, [.name]⟩,
                    .node ⟨"function_value_parameters", true, 61, 63, []⟩ [
                      .leaf ⟨"(", false, 61, 62, []⟩,
                      .leaf ⟨")", false, 62, 63, []⟩],
                    .node ⟨"function_body", true, 64, 66, []⟩ [
                      .node ⟨"block", true, 64, 66, []⟩ [
                        .leaf ⟨"\x7b", false, 64, 65, []⟩,
                        .leaf ⟨"\x7d", false, 65, 66, []⟩]]],
                  .leaf ⟨"\x7d", false, 67, 68, []⟩]],
              .leaf ⟨"\x7d", false, 71, 72, []⟩]],
          .leaf ⟨"\x7d", false, 73, 74, []⟩]]]

/-- The object stands in a class, so it is final although an interface is around both. -/
theorem final_of_type_that_is_not_open_nestedTypesFile :
    ∃ n ∈ preorder nestedTypesFile.root, name n = some "O" ∧ n.file.language = .kotlin ∧
      n.cursor.kind ∈ ["class_declaration", "object_declaration", "companion_object"] ∧
      isInterface n = false ∧
      (∀ k ∈ Kotlin.opening, k ∉ Kotlin.writtenModifiers n.file.source n.cursor) ∧
      "final" ∈ AttributeSettings.recognized {} ∧ "final" ∈ modifiers n ∧
      "final" ∈ (describeClass {} n).attributes := by
  have hobject : ∃ n ∈ preorder nestedTypesFile.root, name n = some "O" ∧
      n.file.language = .kotlin ∧
      n.cursor.kind ∈ ["class_declaration", "object_declaration", "companion_object"] ∧
      isInterface n = false ∧
      (∀ k ∈ Kotlin.opening, k ∉ Kotlin.writtenModifiers n.file.source n.cursor) ∧
      Kotlin.isInterfaceMember n.cursor = false := by
    rw [SourceFile.preorder_root_eq_walk]
    decide +kernel
  obtain ⟨n, hn, hname, hlanguage, htype, hinterface, hopen, hmember⟩ := hobject
  have houtside : ¬ Kotlin.StandsInInterface n.cursor := by
    rw [← Kotlin.isInterfaceMember_iff, hmember]
    decide
  have hrecognized : "final" ∈ AttributeSettings.recognized {} := by decide
  obtain ⟨hiff, hrecord⟩ := final_of_type_that_is_not_open n hlanguage htype hinterface hopen
  have hfinal : "final" ∈ modifiers n := hiff.mpr (Or.inr houtside)
  exact ⟨n, hn, hname, hlanguage, htype, hinterface, hopen, hrecognized, hfinal,
    hrecord {} hrecognized hfinal⟩

/-- The class stands directly in the interface. Nothing keeps it open, but it is not final. -/
theorem exists_type_in_interface_that_is_not_final :
    ∃ n ∈ preorder nestedTypesFile.root, n.cursor.kind = "class_declaration" ∧
      isInterface n = false ∧
      (∀ k ∈ Kotlin.opening, k ∉ Kotlin.writtenModifiers n.file.source n.cursor) ∧
      "final" ∉ modifiers n ∧ "final" ∈ AttributeSettings.recognized {} ∧
      (describeClass {} n).attributes = ["public"] := by
  rw [SourceFile.preorder_root_eq_walk]
  decide +kernel

end DeclScribe
