import DeclScribe.Proofs.Describe.Records
import DeclScribe.Proofs.QualifiedName

/-!
Titles. The declared name of a class is not kept in a record; it is found again behind the last dot
of the qualified name, whatever package and classes are joined in front of it. The title of a method
puts it before the name of the method, that of a constructor has it twice, and a lambda adds one
suffix to the title of what encloses it, which is never a lambda.
-/

namespace DeclScribe

open SourceNode Descent Describe Syntax

section LastSegment

variable {s : String}

theorem takeWhile_reverse_append (h : '.' ∉ s.toList) (front : List Char) :
    (s.toList.reverse ++ front).takeWhile (· ≠ '.') =
      s.toList.reverse ++ front.takeWhile (· ≠ '.') := by
  apply List.takeWhile_append_of_pos
  intro c hc
  exact decide_eq_true fun hdot => h (hdot ▸ List.mem_reverse.mp hc)

/-- Nothing in front of the last dot counts. -/
theorem lastSegment_append (front : String) (h : '.' ∉ s.toList) :
    lastSegment (front ++ "." ++ s) = s := by
  have htext : (front ++ "." ++ s).toList.reverse =
      s.toList.reverse ++ '.' :: front.toList.reverse := by simp
  rw [lastSegment, htext, takeWhile_reverse_append h, List.takeWhile_cons_of_neg (by decide),
    List.append_nil, List.reverse_reverse, String.ofList_toList]

theorem lastSegment_of_not_mem (h : '.' ∉ s.toList) : lastSegment s = s := by
  have hall := takeWhile_reverse_append h []
  rw [List.append_nil, List.takeWhile_nil, List.append_nil] at hall
  rw [lastSegment, hall, List.reverse_reverse, String.ofList_toList]

/-- Cutting at the last dot undoes the joining of names. -/
theorem lastSegment_intercalate (names : List String) (h : '.' ∉ s.toList) :
    lastSegment (".".intercalate (names ++ [s])) = s := by
  by_cases hnames : names = []
  · rw [hnames, List.nil_append, String.intercalate_singleton]
    exact lastSegment_of_not_mem h
  · rw [intercalate_concat s hnames]
    exact lastSegment_append _ h

end LastSegment

section Names

/-- A type has its own name, unlike a constructor. -/
theorem Syntax.Kotlin.name_of_type {c : Cursor} (source : String) (h : Kotlin.kind c = .type) :
    Kotlin.name source c = Kotlin.ownName source c := by
  have hconstructor : Kotlin.constructorKinds.contains c.kind = false := by
    by_contra hmem
    rw [Bool.not_eq_false, List.contains_iff_mem] at hmem
    rcases List.mem_pair.mp hmem with hk | hk <;>
      simp [Kotlin.kind, Kotlin.typeKinds, Kotlin.methodKinds, hk] at h
  rw [Kotlin.name, hconstructor]
  rfl

namespace FileNode

/-- A class that has a qualified name has its declared name at the end of it. -/
theorem lastSegment_of_qualifiedName {c : FileNode} {q s : String}
    (hq : qualifiedName c = some q) (hs : name c = some s) (hdot : '.' ∉ s.toList) :
    lastSegment q = s := by
  obtain ⟨-, -, hqualify⟩ := qualifiedName_eq_some_iff.mp hq
  obtain ⟨own, outer, hown, -, rfl⟩ := qualify_eq_some_iff.mp hqualify
  have hsame : own = s := Option.some.inj (hown.symm.trans hs)
  rw [hsame]
  exact lastSegment_intercalate outer.reverse hdot

/-- A constructor in Kotlin has the name of the class that it is in, though it looks for that class
by itself. -/
theorem name_of_kotlin_constructor {m : FileNode} (hlanguage : m.file.language = .kotlin)
    (hm : isConstructor m = true) : name m = (containingClass m).bind name := by
  obtain ⟨⟨path, source, language, tree, protocol⟩, c⟩ := m
  cases hlanguage
  have hc : Kotlin.constructorKinds.contains c.kind = true := hm
  change Kotlin.name source c = ((c.ancestors.map _).find? fun a => kind a = .type).bind name
  rw [Kotlin.name, if_pos hc, List.find?_map, Option.bind_map]
  change _ = (c.ancestors.find? fun a => Kotlin.kind a = .type).bind (Kotlin.name source)
  cases ha : c.ancestors.find? fun a => Kotlin.kind a = .type with
  | none => rfl
  | some a => exact (Kotlin.name_of_type source (by simpa using List.find?_some ha)).symm

/-- The class around a method has a qualified name, and `s` is its declared name, without dots. -/
def IsInClass (m : FileNode) (s : String) : Prop :=
  ∃ c q, containingClass m = some c ∧ qualifiedName c = some q ∧ name c = some s ∧
    '.' ∉ s.toList

/-- There is no class around a method, or none with a qualified name. -/
def IsInNoNamedClass (m : FileNode) : Prop :=
  ∀ c, containingClass m = some c → qualifiedName c = none

end FileNode

end Names

namespace Describe

variable {ν : Type} [SourceNode ν] (settings : AttributeSettings)

/-- The title by the name that the record has for the class around. -/
theorem title_describeMethod (m : ν) (offset : Nat) :
    (describeMethod settings m offset).title =
      match (describeMethod settings m offset).owner.bind ClassDescription.simpleName with
      | some s => s ++ "." ++ if isConstructor m then s else (name m).getD ""
      | none => if isConstructor m then "<init>" else (name m).getD "" := by
  unfold describeMethod
  cases isConstructor m <;> rfl

end Describe

/-- What the record of a method or a constructor shows of names: the declared name of the class
around, where that has a qualified name, and the method alone otherwise. -/
structure Description.ShowsMethod (d : Description) (m : FileNode) : Prop where
  class_name : ∀ s, m.IsInClass s → ∃ c, d.owner = some c ∧ c.simpleName = some s
  method_in_class : ∀ s t, m.IsInClass s → SourceNode.isConstructor m = false →
    SourceNode.name m = some t → d.title = s ++ "." ++ t
  constructor_in_class : ∀ s, m.IsInClass s → SourceNode.isConstructor m = true →
    d.title = s ++ "." ++ s
  method_alone : ∀ t, m.IsInNoNamedClass → SourceNode.isConstructor m = false →
    SourceNode.name m = some t → d.title = t
  constructor_alone : m.IsInNoNamedClass → SourceNode.isConstructor m = true → d.title = "<init>"

namespace Describe

variable (settings : AttributeSettings) {m : FileNode}

theorem exists_owner_of_isInClass {s : String} (h : m.IsInClass s) (offset : Nat) :
    ∃ c, (describeMethod settings m offset).owner = some c ∧ c.simpleName = some s := by
  obtain ⟨c, q, hc, hq, hs, hdot⟩ := h
  refine ⟨describeClass settings c, ?_, ?_⟩
  · rw [owner_describeMethod, hc, Option.map_some]
  · rw [ClassDescription.simpleName, describeClass, hq, Option.map_some,
      FileNode.lastSegment_of_qualifiedName hq hs hdot]

theorem bind_owner_of_isInNoNamedClass (h : m.IsInNoNamedClass) (offset : Nat) :
    (describeMethod settings m offset).owner.bind ClassDescription.simpleName = none := by
  rw [owner_describeMethod]
  cases hc : containingClass m with
  | none => rfl
  | some c =>
    rw [Option.map_some, Option.bind_some, ClassDescription.simpleName, describeClass, h c hc,
      Option.map_none]

theorem showsMethod_describeMethod (m : FileNode) (offset : Nat) :
    (describeMethod settings m offset).ShowsMethod m := by
  have htitle := title_describeMethod settings m offset
  have hin {s : String} (h : m.IsInClass s) :
      (describeMethod settings m offset).owner.bind ClassDescription.simpleName = some s := by
    obtain ⟨c, hc, hs⟩ := exists_owner_of_isInClass settings h offset
    rw [hc, Option.bind_some, hs]
  refine ⟨fun s h => exists_owner_of_isInClass settings h offset, ?_, ?_, ?_, ?_⟩
  · intro s t h hm ht
    rw [htitle, hin h, hm, ht]
    rfl
  · intro s h hm
    rw [htitle, hin h, hm]
    rfl
  · intro t h hm ht
    rw [htitle, bind_owner_of_isInNoNamedClass settings h, hm, ht]
    rfl
  · intro h hm
    rw [htitle, bind_owner_of_isInNoNamedClass settings h, hm]
    rfl

end Describe

/-- What the record of a method or a lambda shows of names. A lambda shows those of the nearest
method above it, and in the title one suffix more. -/
structure Description.ShowsNames (d : Description) (n : FileNode) : Prop where
  isDeclaration : IsDeclaration n
  of_method : kind n = .method → d.ShowsMethod n
  of_lambda : kind n = .lambda → ∃ m e, IsNearestMethod m n ∧ d.enclosing = some e ∧
    e.isLambda = false ∧ e.ShowsMethod m ∧ d.owner = e.owner ∧ d.title = e.title ++ "$lambda"

theorem Describe.showsNames_of_describe (settings : AttributeSettings) {n : FileNode}
    {offset : Nat} {d : Description} (h : describe settings n offset = .ok (some d)) :
    d.ShowsNames n := by
  rcases (describe_eq_some_iff settings).mp h with ⟨hn, rfl⟩ | ⟨hn, m, hm, rfl⟩
  · refine ⟨Or.inl hn, fun _ => showsMethod_describeMethod settings n offset, fun hl => ?_⟩
    rw [hn] at hl
    cases hl
  · refine ⟨Or.inr hn, fun hmethod => ?_, fun _ => ?_⟩
    · rw [hn] at hmethod
      cases hmethod
    · exact ⟨m, describeMethod settings m offset, containingMethod_eq_some_iff.mp hm, rfl,
        isLambda_describeMethod settings m offset, showsMethod_describeMethod settings m offset,
        rfl, rfl⟩

/-- The titles of records show declared names, on whatever way a record is made. Where the class
around a method has a qualified name and a declared name without dots, the declared name is the
simple name of the class and stands in front of the name of the method; the title of a constructor
has it twice, and in Kotlin a constructor has it for its own name too. Where no such class is
around, the title is that of the method alone. A lambda has one suffix behind the title of the
method around it. -/
theorem titles_show_declared_names (settings : AttributeSettings) :
    (∀ (n : FileNode) (offset : Nat) (d : Description),
      describe settings n offset = .ok (some d) → d.ShowsNames n) ∧
      (∀ (r : FileNode) (ds : List Description), describeAll settings r = .ok ds →
        ∀ d ∈ ds, ∃ n ∈ preorder r, describeHere settings n = .ok (some d) ∧ d.ShowsNames n) ∧
      (∀ f : SourceFile, ∀ d ∈ f.descriptions settings,
        ∃ n ∈ preorder f.root, describeHere settings n = .ok (some d) ∧ d.ShowsNames n) ∧
      (∀ (f : SourceFile) (offset : Nat) (d : Description),
        f.describeAt settings offset = .ok (some d) → ∃ n, f.declarationAt offset = some n ∧
          describeHere settings n = .ok (some d) ∧ d.ShowsNames n) ∧
      ∀ (m : FileNode) (s : String), m.file.language = .kotlin → isConstructor m = true →
        m.IsInClass s → name m = some s := by
  have hlisted {r : FileNode} {d : Description} (hd : d ∈ listAll settings r) :
      ∃ n ∈ preorder r, describeHere settings n = .ok (some d) ∧ d.ShowsNames n := by
    obtain ⟨n, hn, hhere⟩ := (mem_listAll settings).mp hd
    exact ⟨n, hn, hhere, showsNames_of_describe settings hhere⟩
  refine ⟨?_, ?_, ?_, ?_, ?_⟩
  · intro n offset d h
    exact showsNames_of_describe settings h
  · intro r ds h d hd
    rw [((describeAll_eq_ok_iff settings).mp h).2] at hd
    exact hlisted hd
  · intro f d hd
    exact hlisted hd
  · intro f offset d h
    obtain ⟨n, hn, hhere⟩ := (SourceFile.describeAt_eq_some_iff settings).mp h
    exact ⟨n, hn, hhere, showsNames_of_describe settings hhere⟩
  · rintro m s hlanguage hm ⟨c, q, hc, -, hs, -⟩
    rw [FileNode.name_of_kotlin_constructor hlanguage hm, hc, Option.bind_some, hs]

/-- A constructor of a class in a class of a package, with a lambda in a lambda. -/
def nestedConstructorFile : SourceFile where
  path := "src/A.kt"
  source := "package p\nclass A \x7b class B \x7b constructor() \x7b a \x7b b \x7b \x7d \x7d \x7d \x7d \x7d"
  language := .kotlin
  tree :=
    .node ⟨"source_file", true, 0, 63, []⟩ [
      .node ⟨"package_header", true, 0, 9, []⟩ [
        .leaf ⟨"package", false, 0, 7, []⟩,
        .node ⟨"qualified_identifier", true, 8, 9, []⟩ [
          .leaf ⟨"identifier", true, 8, 9, []⟩]],
      .node ⟨"class_declaration", true, 10, 63, []⟩ [
        .leaf ⟨"class", false, 10, 15, []⟩,
        .leaf ⟨"identifier", true, 16, 17, [.name]⟩,
        .node ⟨"class_body", true, 18, 63, []⟩ [
          .leaf ⟨"\x7b", false, 18, 19, []⟩,
          .node ⟨"class_declaration", true, 20, 61, []⟩ [
            .leaf ⟨"class", false, 20, 25, []⟩,
            .leaf ⟨"identifier", true, 26, 27, [.name]⟩,
            .node ⟨"class_body", true, 28, 61, []⟩ [
              .leaf ⟨"\x7b", false, 28, 29, []⟩,
              .node ⟨"secondary_constructor", true, 30, 59, []⟩ [
                .leaf ⟨"constructor", false, 30, 41, []⟩,
                .node ⟨"function_value_parameters", true, 41, 43, []⟩ [
                  .leaf ⟨"(", false, 41, 42, []⟩,
                  .leaf ⟨")", false, 42, 43, []⟩],
                .node ⟨"block", true, 44, 59, []⟩ [
                  .leaf ⟨"\x7b", false, 44, 45, []⟩,
                  .node ⟨"call_expression", true, 46, 57, []⟩ [
                    .leaf ⟨"identifier", true, 46, 47, []⟩,
                    .node ⟨"annotated_lambda", true, 48, 57, []⟩ [
                      .node ⟨"lambda_literal", true, 48, 57, []⟩ [
                        .leaf ⟨"\x7b", false, 48, 49, []⟩,
                        .node ⟨"call_expression", true, 50, 55, []⟩ [
                          .leaf ⟨"identifier", true, 50, 51, []⟩,
                          .node ⟨"annotated_lambda", true, 52, 55, []⟩ [
                            .node ⟨"lambda_literal", true, 52, 55, []⟩ [
                              .leaf ⟨"\x7b", false, 52, 53, []⟩,
                              .leaf ⟨"\x7d", false, 54, 55, []⟩]]],
                        .leaf ⟨"\x7d", false, 56, 57, []⟩]]],
                  .leaf ⟨"\x7d", false, 58, 59, []⟩]],
              .leaf ⟨"\x7d", false, 60, 61, []⟩]],
          .leaf ⟨"\x7d", false, 62, 63, []⟩]]]

/-- The inner lambda is called after the constructor, with the suffix once, and the constructor has
the name of its class. -/
theorem titles_show_declared_names_nestedConstructorFile :
    ∃ (n m : FileNode) (d : Description), describeHere {} n = .ok (some d) ∧
      d ∈ nestedConstructorFile.descriptions {} ∧ d.offset = 52 ∧ d.title = "B.B$lambda" ∧
      containingMethod n = some m ∧ name m = some "B" := by
  obtain ⟨n, hn, hoffset, hkind, m, hm, hconstructor, hlanguage, c, hc, hq, hs⟩ :
      ∃ n ∈ preorder nestedConstructorFile.root, navigationOffset n = 52 ∧ kind n = .lambda ∧
        ∃ m ∈ containingMethod n, isConstructor m = true ∧ m.file.language = .kotlin ∧
          ∃ c ∈ containingClass m, qualifiedName c = some "p.A.B" ∧ name c = some "B" := by
    rw [SourceFile.preorder_root_eq_walk]
    decide +kernel
  have hclass : m.IsInClass "B" := ⟨c, _, hc, hq, hs, by decide⟩
  have henclosed : Enclosed n := by
    by_contra hno
    cases (not_enclosed_iff.mp hno).2.symm.trans hm
  obtain ⟨d, hd, hdoffset⟩ := exists_describe {} (Or.inr hkind) henclosed (navigationOffset n)
  have htitles := titles_show_declared_names {}
  obtain ⟨m', e, hm', -, -, hshows, -, htitle⟩ := (htitles.1 n _ d hd).of_lambda hkind
  -- the method that the record tells of is the constructor
  have hsame : m' = m := Option.some.inj ((containingMethod_eq_some_iff.mpr hm').symm.trans hm)
  rw [hsame] at hshows
  refine ⟨n, m, d, hd, (mem_listAll {}).mpr ⟨n, hn, hd⟩, hdoffset.trans hoffset, ?_, hm, ?_⟩
  · rw [htitle, hshows.constructor_in_class "B" hclass hconstructor]
    rfl
  · exact htitles.2.2.2.2 m "B" hlanguage hconstructor hclass

end DeclScribe
