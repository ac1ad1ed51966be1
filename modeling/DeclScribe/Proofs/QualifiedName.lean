import Mathlib.Data.List.TakeWhile
import DeclScribe.Proofs.SourceFile
import DeclScribe.Proofs.Syntax.Qualified

/-!
Qualified names of the classes of a file: they compose along the nesting of classes, start with the
package of the file, and end at methods, lambdas and classes that have no name.
-/

namespace DeclScribe

open SourceNode Descent Syntax

theorem Syntax.Java.package_eq_some_iff {source : String} {c : Cursor} {p : String} :
    Java.package source c = some p ↔ c.kind = "program" ∧
      ∃ declaration found, c.childOfKind "package_declaration" = some declaration ∧
        (declaration.namedChildren.find? fun d =>
          ["scoped_identifier", "identifier"].contains d.kind) = some found ∧
        p = Text.canonicalType (found.text source) := by
  unfold Java.package
  by_cases hk : c.kind = "program"
  · rw [if_pos (beq_iff_eq.mpr hk), and_iff_right hk]
    simp only [Option.bind_eq_bind, Option.bind_eq_some_iff, Option.pure_def, Option.some.injEq]
    constructor
    · rintro ⟨declaration, hdeclaration, found, hfound, rfl⟩
      exact ⟨declaration, found, hdeclaration, hfound, rfl⟩
    · rintro ⟨declaration, found, hdeclaration, hfound, rfl⟩
      exact ⟨declaration, hdeclaration, found, hfound, rfl⟩
  · rw [if_neg (mt beq_iff_eq.mp hk)]
    simp [hk]

theorem Syntax.Kotlin.package_eq_some_iff {source : String} {c : Cursor} {p : String} :
    Kotlin.package source c = some p ↔ c.kind = "source_file" ∧
      ∃ header, c.childOfKind "package_header" = some header ∧
        p = Text.canonicalType (String.ofList (Text.dropBack (· == ';')
          (Text.dropPrefixes "package".toList (Text.trim (header.text source)).toList))) ∧
        p ≠ "" := by
  unfold Kotlin.package
  by_cases hk : c.kind = "source_file"
  · rw [if_pos (beq_iff_eq.mpr hk), and_iff_right hk]
    simp only [Option.bind_eq_bind, Option.bind_eq_some_iff]
    refine exists_congr fun header => and_congr_right fun _ => ?_
    split
    · next hempty =>
      constructor
      · intro h
        cases h
      · rintro ⟨rfl, hne⟩
        exact absurd (beq_iff_eq.mp hempty) hne
    · next hempty =>
      constructor
      · intro h
        cases h
        exact ⟨rfl, mt beq_iff_eq.mpr hempty⟩
      · rintro ⟨rfl, -⟩
        rfl
  · rw [if_neg (mt beq_iff_eq.mp hk)]
    simp [hk]

/-- Blanks and a semicolon in the header are not part of the package. -/
example : Syntax.Kotlin.package "package  a.b ;" (.root <|
    .node ⟨"source_file", true, 0, 14, []⟩ [.node ⟨"package_header", true, 0, 14, []⟩ [
      .leaf ⟨"package", false, 0, 7, []⟩,
      .node ⟨"identifier", true, 9, 12, []⟩ [
        .leaf ⟨"simple_identifier", true, 9, 10, []⟩,
        .leaf ⟨".", false, 10, 11, []⟩,
        .leaf ⟨"simple_identifier", true, 11, 12, []⟩],
      .leaf ⟨";", false, 13, 14, []⟩]]) = some "a.b" := by
  decide +kernel

namespace Language

/-- The kind of the node at the top of a tree. -/
def rootKind : Language → String
  | java => "program"
  | kotlin => "source_file"

/-- Whether a node declares a class in place, where it is used. -/
def isAnonymousClass : Language → Cursor → Bool
  | java, c => Java.isAnonymousClass c
  | kotlin, c => c.kind == "object_literal"

/-- The package that a node tells of, if it is the top of a tree. -/
def package : Language → String → Cursor → Option String
  | java => Java.package
  | kotlin => Kotlin.package

theorem qualifiedName_eq (l : Language) (source : String) (c : Cursor) :
    l.dialect.qualifiedName source c =
      if l.dialect.kind c = .type && !l.isAnonymousClass c then
        qualify l.dialect.kind (l.dialect.name source) (l.package source) c
      else none := by
  cases l <;> rfl

theorem package_eq_none {l : Language} {c : Cursor} (source : String) (h : c.kind ≠ l.rootKind) :
    l.package source c = none := by
  cases l with
  | java => exact if_neg (by simpa [rootKind] using h)
  | kotlin => exact if_neg (by simpa [rootKind] using h)

theorem kind_ne_rootKind_of_type {l : Language} {c : Cursor} (h : l.dialect.kind c = .type) :
    c.kind ≠ l.rootKind := by
  intro hroot
  cases l with
  | java =>
    have hk : c.kind = "program" := hroot
    have hother : Java.kind c = .other := by
      simp [Java.kind, Java.typeKinds, Java.methodKinds, Java.formalKinds, Java.isAnonymousClass,
        Java.isLambdaIdentifier, hk]
    cases hother.symm.trans h
  | kotlin =>
    have hk : c.kind = "source_file" := hroot
    have hother : Kotlin.kind c = .other := by
      simp [Kotlin.kind, Kotlin.typeKinds, Kotlin.methodKinds, Kotlin.lambdaKinds,
        Kotlin.isLambdaParameter, Kotlin.lambdaParameterKinds, hk]
    cases hother.symm.trans h

theorem type_of_isAnonymousClass {l : Language} {c : Cursor} (h : l.isAnonymousClass c = true) :
    l.dialect.kind c = .type := by
  cases l with
  | java =>
    have h : Java.isAnonymousClass c = true := h
    exact if_pos (by rw [h, Bool.or_true])
  | kotlin =>
    have hk : c.kind = "object_literal" := by simpa [isAnonymousClass] using h
    exact if_pos (by simp [Kotlin.typeKinds, hk])

/-- Of the anonymous classes only enum constants may have a name. -/
theorem name_of_isAnonymousClass {l : Language} {c : Cursor} (source : String)
    (h : l.isAnonymousClass c = true) (hconstant : c.kind ≠ "enum_constant") :
    l.dialect.name source c = none := by
  cases l with
  | java =>
    have hk : c.kind = "object_creation_expression" := by
      simp only [isAnonymousClass, Java.isAnonymousClass, Bool.and_eq_true] at h
      simpa [hconstant] using h.1
    have hnode : Java.nameNode c = none := by simp [Java.nameNode, hk]
    exact Option.map_eq_none_iff.mpr hnode
  | kotlin =>
    have hk : c.kind = "object_literal" := by simpa [isAnonymousClass] using h
    change Kotlin.name source c = none
    simp [Kotlin.name, Kotlin.ownName, Kotlin.nameNode, Kotlin.constructorKinds,
      Kotlin.isIdentifier, hk]

end Language

namespace FileNode

def isAnonymousClass (n : FileNode) : Bool := n.file.language.isAnonymousClass n.cursor

/-- Within such a node no class has a qualified name: within a method, a lambda, or a class without
a name. -/
def HidesNames (n : FileNode) : Prop :=
  kind n = .method ∨ kind n = .lambda ∨ (kind n = .type ∧ name n = none)

theorem qualifiedName_eq (n : FileNode) :
    qualifiedName n =
      if kind n = .type && !n.isAnonymousClass then
        qualify n.dialect.kind (n.dialect.name n.file.source)
          (n.file.language.package n.file.source) n.cursor
      else none :=
  Language.qualifiedName_eq n.file.language n.file.source n.cursor

/-- What a node with a qualified name is, and how that is made up. -/
theorem qualifiedName_eq_some_iff {n : FileNode} {q : String} :
    qualifiedName n = some q ↔ kind n = .type ∧ n.isAnonymousClass = false ∧
      qualify n.dialect.kind (n.dialect.name n.file.source)
        (n.file.language.package n.file.source) n.cursor = some q := by
  rw [qualifiedName_eq, Option.ite_none_right_eq_some]
  simp [and_assoc]

/-- A class has a qualified name but for three reasons: it is anonymous, it has no name, or
something above it hides names. -/
theorem qualifiedName_eq_none_iff {n : FileNode} (hkind : kind n = .type) :
    qualifiedName n = none ↔
      n.isAnonymousClass = true ∨ name n = none ∨ ∃ a ∈ ancestors n, a.HidesNames := by
  have habove : (∃ a ∈ ancestors n, a.HidesNames) ↔ ∃ c ∈ n.cursor.ancestors,
      Hides n.dialect.kind (n.dialect.name n.file.source) c := by
    change (∃ a ∈ n.cursor.ancestors.map n.sibling, a.HidesNames) ↔ _
    simp only [List.mem_map, exists_exists_and_eq_and]
    rfl
  rw [qualifiedName_eq, habove]
  cases n.isAnonymousClass with
  | true => simp
  | false =>
    rw [if_pos (by simp [hkind]), qualify_eq_none_iff]
    simp only [Bool.false_eq_true, false_or]
    rfl

end FileNode

namespace SourceFile

/-- The package that a file declares at the top of its tree. It is written in Java in the first
package declaration, in Kotlin in the header behind the keyword and in front of the semicolons. An
empty one counts as none in Kotlin. -/
def DeclaresPackage (f : SourceFile) (p : String) : Prop :=
  match f.language with
  | .java => f.root.cursor.kind = "program" ∧
    ∃ declaration found, f.root.cursor.childOfKind "package_declaration" = some declaration ∧
      (declaration.namedChildren.find? fun d =>
        ["scoped_identifier", "identifier"].contains d.kind) = some found ∧
      p = Text.canonicalType (found.text f.source)
  | .kotlin => f.root.cursor.kind = "source_file" ∧
    ∃ header, f.root.cursor.childOfKind "package_header" = some header ∧
      p = Text.canonicalType (String.ofList (Text.dropBack (· == ';')
        (Text.dropPrefixes "package".toList (Text.trim (header.text f.source)).toList))) ∧
      p ≠ ""

theorem declaresPackage_iff {f : SourceFile} {p : String} :
    f.DeclaresPackage p ↔ f.language.package f.source f.root.cursor = some p := by
  obtain ⟨path, source, language, tree, protocol⟩ := f
  cases language with
  | java => exact Java.package_eq_some_iff.symm
  | kotlin => exact Kotlin.package_eq_some_iff.symm

/-- Above a class of a file, only the root may tell of a package. -/
theorem filterMap_package_ancestors {f : SourceFile}
    (hroot : ∀ c ∈ f.root.cursor.inside, c.kind ≠ f.language.rootKind) {c : Cursor}
    (hc : c ∈ f.root.cursor.subtree) (hkind : f.language.dialect.kind c = .type) :
    c.ancestors.filterMap (f.language.package f.source) =
      (f.language.package f.source f.root.cursor).toList := by
  obtain ⟨inner, hway, hinner⟩ := Cursor.exists_way_up hc
  have hself : f.language.package f.source c = none :=
    Language.package_eq_none f.source (Language.kind_ne_rootKind_of_type hkind)
  have hinside : inner.filterMap (f.language.package f.source) = [] := by
    apply List.filterMap_eq_nil_iff.mpr
    intro a ha
    exact Language.package_eq_none f.source (hroot a (hinner a ha))
  calc
    c.ancestors.filterMap (f.language.package f.source)
    _ = (c :: c.ancestors).filterMap (f.language.package f.source) :=
      (List.filterMap_cons_none hself).symm
    _ = (inner ++ [f.root.cursor]).filterMap (f.language.package f.source) := by
      rw [hway]
      rfl
    _ = (f.language.package f.source f.root.cursor).toList := by
      rw [List.filterMap_append, hinside]
      cases h : f.language.package f.source f.root.cursor <;> simp [h]

end SourceFile

/-- The class right around a node, and what lies between the two. -/
theorem FileNode.exists_split_of_containingClass {n d : FileNode}
    (h : containingClass n = some d) : ∃ between above,
      n.cursor.ancestors = between ++ d.cursor :: above ∧ d = n.sibling d.cursor ∧
        kind d = .type ∧
        (ancestors n).takeWhile (fun a => kind a ≠ .type) = between.map n.sibling := by
  obtain ⟨hd, before, after, hsplit, hbefore⟩ := List.find?_eq_some_iff_append.mp h
  have htake : (ancestors n).takeWhile (fun a => kind a ≠ .type) = before := by
    rw [hsplit, List.takeWhile_append_of_pos (by simpa using hbefore),
      List.takeWhile_cons_of_neg (by simpa using hd), List.append_nil]
  change n.cursor.ancestors.map n.sibling = before ++ d :: after at hsplit
  obtain ⟨between, rest, hancestors, hbetween, hrest⟩ := List.map_eq_append_iff.mp hsplit
  obtain ⟨c, above, rfl, hc, -⟩ := List.map_eq_cons_iff.mp hrest
  subst hc
  exact ⟨between, above, hancestors, rfl, of_decide_eq_true hd, htake.trans hbetween.symm⟩

/-- A class with a name that is in no class, method or lambda has the package of the file in front of
its name, if there is one. -/
theorem SourceFile.qualifiedName_of_containingClass_eq_none {f : SourceFile}
    (hroot : ∀ c ∈ f.root.cursor.inside, c.kind ≠ f.language.rootKind) {c : Cursor}
    (hc : c ∈ f.root.cursor.subtree) (hkind : kind (f.node c) = .type)
    (hanonymous : (f.node c).isAnonymousClass = false) {s : String} (hs : name (f.node c) = some s)
    (hclass : containingClass (f.node c) = none)
    (hplain : ∀ a ∈ ancestors (f.node c), kind a ≠ .method ∧ kind a ≠ .lambda) :
    qualifiedName (f.node c) = some (".".intercalate
      ((f.language.package f.source f.root.cursor).toList.reverse ++ [s])) := by
  have hpasses : ∀ a ∈ c.ancestors, Passes f.language.dialect.kind a := by
    intro a ha
    have hmem : f.node a ∈ ancestors (f.node c) := List.mem_map_of_mem ha
    have htype : kind (f.node a) ≠ .type := by
      simpa using List.find?_eq_none.mp hclass (f.node a) hmem
    exact ⟨htype, hplain (f.node a) hmem⟩
  apply FileNode.qualifiedName_eq_some_iff.mpr
  refine ⟨hkind, hanonymous, ?_⟩
  have hqualify : qualify f.language.dialect.kind (f.language.dialect.name f.source)
      (f.language.package f.source) c = some (".".intercalate
        ((c.ancestors.filterMap (f.language.package f.source)).reverse ++ [s])) :=
    qualify_of_outermost hs hpasses
  rw [filterMap_package_ancestors hroot hc hkind] at hqualify
  exact hqualify

/-- A class with a name that is in another class, with neither a method nor a lambda between, adds
its name to the qualified name of that class. -/
theorem SourceFile.qualifiedName_of_containingClass {f : SourceFile}
    (hroot : ∀ c ∈ f.root.cursor.inside, c.kind ≠ f.language.rootKind) {c : Cursor}
    (hc : c ∈ f.root.cursor.subtree) (hkind : kind (f.node c) = .type)
    (hanonymous : (f.node c).isAnonymousClass = false) {s : String} (hs : name (f.node c) = some s)
    {d : FileNode} {q : String} (hd : containingClass (f.node c) = some d)
    (hq : qualifiedName d = some q)
    (hplain : ∀ a ∈ (ancestors (f.node c)).takeWhile (fun a => kind a ≠ .type),
      kind a ≠ .method ∧ kind a ≠ .lambda) :
    qualifiedName (f.node c) = some (q ++ "." ++ s) := by
  obtain ⟨between, above, hsplit, hnode, hdkind, htake⟩ :=
    FileNode.exists_split_of_containingClass hd
  change d = f.node d.cursor at hnode
  rw [hnode] at hdkind hq
  have hpasses : ∀ a ∈ between, Passes f.language.dialect.kind a := by
    intro a ha
    have hmem : f.node a ∈ (ancestors (f.node c)).takeWhile (fun a => kind a ≠ .type) := by
      rw [htake]
      exact List.mem_map_of_mem ha
    have htype : kind (f.node a) ≠ .type := by
      simpa using List.mem_takeWhile_imp hmem
    exact ⟨htype, hplain (f.node a) hmem⟩
  obtain ⟨-, -, hdqualify⟩ := FileNode.qualifiedName_eq_some_iff.mp hq
  -- only the root tells of a package, and the root is no class
  have hpackage : ∀ a ∈ between ++ [d.cursor], f.language.package f.source a = none := by
    intro a ha
    apply Language.package_eq_none f.source
    rcases List.mem_append.mp ha with ha | ha
    · exact hroot a (Cursor.mem_inside_of_mem_between hc hsplit a ha)
    · rw [List.mem_singleton.mp ha]
      exact Language.kind_ne_rootKind_of_type hdkind
  apply FileNode.qualifiedName_eq_some_iff.mpr
  exact ⟨hkind, hanonymous, qualify_of_nested hsplit hpasses hpackage hdkind hs hdqualify⟩

/-- Qualified names compose along nesting. A class with a name that is below a method or a lambda has
none; one that is in no class either has the package of the file in front of its name, if there is
one; one that is in a class with a qualified name has that in front, whatever lies between. -/
theorem qualifiedName_composes (f : SourceFile)
    (hroot : ∀ c ∈ f.root.cursor.inside, c.kind ≠ f.language.rootKind) (n : FileNode)
    (hn : n ∈ f.nodes) (hkind : kind n = .type) (hanonymous : n.isAnonymousClass = false)
    (s : String) (hs : name n = some s) :
    ((∃ a ∈ ancestors n, kind a = .method ∨ kind a = .lambda) → qualifiedName n = none) ∧
      (containingClass n = none → (∀ a ∈ ancestors n, kind a ≠ .method ∧ kind a ≠ .lambda) →
        (∀ p, f.DeclaresPackage p → qualifiedName n = some (p ++ "." ++ s)) ∧
          ((∀ p, ¬ f.DeclaresPackage p) → qualifiedName n = some s)) ∧
      ∀ d q, containingClass n = some d → qualifiedName d = some q →
        (∀ a ∈ (ancestors n).takeWhile (fun a => kind a ≠ .type),
          kind a ≠ .method ∧ kind a ≠ .lambda) →
          qualifiedName n = some (q ++ "." ++ s) := by
  obtain ⟨c, hc, rfl⟩ := List.mem_map.mp hn
  refine ⟨?_, ?_, ?_⟩
  · rintro ⟨a, ha, hhides⟩
    apply (FileNode.qualifiedName_eq_none_iff hkind).mpr
    exact Or.inr (Or.inr ⟨a, ha, hhides.imp_right Or.inl⟩)
  · intro hclass hplain
    have houtermost := SourceFile.qualifiedName_of_containingClass_eq_none hroot hc hkind
      hanonymous hs hclass hplain
    constructor
    · intro p hp
      rw [houtermost, SourceFile.declaresPackage_iff.mp hp]
      simp
    · intro hnone
      have hpackage : f.language.package f.source f.root.cursor = none := by
        apply Option.eq_none_iff_forall_ne_some.mpr
        intro p hp
        exact hnone p (SourceFile.declaresPackage_iff.mpr hp)
      rw [houtermost, hpackage]
      simp
  · intro d q hd hq hplain
    exact SourceFile.qualifiedName_of_containingClass hroot hc hkind hanonymous hs hd hq hplain

/-- A class in a class of a package, with a local class in a method. -/
def nestedClassesFile : SourceFile where
  path := "A.java"
  source := "package a. b; class A \x7b class B \x7b void f() \x7b class C \x7b \x7d \x7d \x7d \x7d"
  language := .java
  tree :=
    .node ⟨"program", true, 0, 62, []⟩ [
      .node ⟨"package_declaration", true, 0, 13, []⟩ [
        .leaf ⟨"package", false, 0, 7, []⟩,
        .node ⟨"scoped_identifier", true, 8, 12, []⟩ [
          .leaf ⟨"identifier", true, 8, 9, []⟩,
          .leaf ⟨".", false, 9, 10, []⟩,
          .leaf ⟨"identifier", true, 11, 12, [.name]⟩],
        .leaf ⟨";", false, 12, 13, []⟩],
      .node ⟨"class_declaration", true, 14, 62, []⟩ [
        .leaf ⟨"class", false, 14, 19, []⟩,
        .leaf ⟨"identifier", true, 20, 21, [.name]⟩,
        .node ⟨"class_body", true, 22, 62, [.body]⟩ [
          .leaf ⟨"\x7b", false, 22, 23, []⟩,
          .node ⟨"class_declaration", true, 24, 60, []⟩ [
            .leaf ⟨"class", false, 24, 29, []⟩,
            .leaf ⟨"identifier", true, 30, 31, [.name]⟩,
            .node ⟨"class_body", true, 32, 60, [.body]⟩ [
              .leaf ⟨"\x7b", false, 32, 33, []⟩,
              .node ⟨"method_declaration", true, 34, 58, []⟩ [
                .leaf ⟨"void_type", true, 34, 38, [.type]⟩,
                .leaf ⟨"identifier", true, 39, 40, [.name]⟩,
                .node ⟨"formal_parameters", true, 40, 42, [.parameters]⟩ [
                  .leaf ⟨"(", false, 40, 41, []⟩,
                  .leaf ⟨")", false, 41, 42, []⟩],
                .node ⟨"block", true, 43, 58, [.body]⟩ [
                  .leaf ⟨"\x7b", false, 43, 44, []⟩,
                  .node ⟨"class_declaration", true, 45, 56, []⟩ [
                    .leaf ⟨"class", false, 45, 50, []⟩,
                    .leaf ⟨"identifier", true, 51, 52, [.name]⟩,
                    .node ⟨"class_body", true, 53, 56, [.body]⟩ [
                      .leaf ⟨"\x7b", false, 53, 54, []⟩,
                      .leaf ⟨"\x7d", false, 55, 56, []⟩]],
                  .leaf ⟨"\x7d", false, 57, 58, []⟩]],
              .leaf ⟨"\x7d", false, 59, 60, []⟩]],
          .leaf ⟨"\x7d", false, 61, 62, []⟩]]]

/-- The class inside has the name of the class around it in front, which starts with the package;
the local class has no qualified name. -/
theorem qualifiedName_composes_nestedClassesFile :
    (∃ a ∈ nestedClassesFile.nodes, name a = some "A" ∧ qualifiedName a = some "a.b.A") ∧
      (∃ b ∈ nestedClassesFile.nodes, name b = some "B" ∧ qualifiedName b = some "a.b.A.B") ∧
      ∃ c ∈ nestedClassesFile.nodes, name c = some "C" ∧ qualifiedName c = none := by
  have hroot : ∀ c ∈ nestedClassesFile.root.cursor.inside,
      c.kind ≠ nestedClassesFile.language.rootKind := by
    rw [Cursor.inside_eq_tail, Cursor.subtree_eq_walk]
    decide +kernel
  have hpackage : nestedClassesFile.DeclaresPackage "a.b" :=
    SourceFile.declaresPackage_iff.mpr (by decide +kernel)
  have houter : ∃ a ∈ nestedClassesFile.nodes, kind a = .type ∧ a.isAnonymousClass = false ∧
      name a = some "A" ∧ containingClass a = none ∧
      ∀ m ∈ ancestors a, kind m ≠ .method ∧ kind m ≠ .lambda := by
    rw [SourceFile.nodes_eq_walk]
    decide +kernel
  have hinner : ∃ b ∈ nestedClassesFile.nodes, kind b = .type ∧ b.isAnonymousClass = false ∧
      name b = some "B" ∧ (containingClass b).bind qualifiedName = some "a.b.A" ∧
      ∀ m ∈ (ancestors b).takeWhile (fun m => kind m ≠ .type),
        kind m ≠ .method ∧ kind m ≠ .lambda := by
    rw [SourceFile.nodes_eq_walk]
    decide +kernel
  have hlocal : ∃ c ∈ nestedClassesFile.nodes, kind c = .type ∧ c.isAnonymousClass = false ∧
      name c = some "C" ∧ ∃ m ∈ ancestors c, kind m = .method ∨ kind m = .lambda := by
    rw [SourceFile.nodes_eq_walk]
    decide +kernel
  refine ⟨?_, ?_, ?_⟩
  · obtain ⟨a, ha, hkind, hanonymous, hname, hclass, hplain⟩ := houter
    refine ⟨a, ha, hname, ?_⟩
    have houtermost := (qualifiedName_composes nestedClassesFile hroot a ha hkind hanonymous "A"
      hname).2.1 hclass hplain
    exact houtermost.1 "a.b" hpackage
  · obtain ⟨b, hb, hkind, hanonymous, hname, hclass, hplain⟩ := hinner
    obtain ⟨a, ha, hq⟩ := Option.bind_eq_some_iff.mp hclass
    refine ⟨b, hb, hname, ?_⟩
    exact (qualifiedName_composes nestedClassesFile hroot b hb hkind hanonymous "B" hname).2.2
      a "a.b.A" ha hq hplain
  · obtain ⟨c, hc, hkind, hanonymous, hname, hmethod⟩ := hlocal
    refine ⟨c, hc, hname, ?_⟩
    exact (qualifiedName_composes nestedClassesFile hroot c hc hkind hanonymous "C" hname).1 hmethod

/-- Of the anonymous classes, which all lack a qualified name, only the constants of an enum have a
name, and only these may be on the way to a class that has a qualified name: it is one of its parts. -/
theorem qualifiedName_below_anonymousClass (n a : FileNode) (ha : a ∈ ancestors n)
    (hanonymous : a.isAnonymousClass = true) :
    qualifiedName a = none ∧ (a.cursor.kind ≠ "enum_constant" → qualifiedName n = none) ∧
      ∀ q, qualifiedName n = some q → ∃ s before after, name a = some s ∧ after ≠ [] ∧
        q = ".".intercalate (before ++ s :: after) := by
  change a ∈ n.cursor.ancestors.map n.sibling at ha
  obtain ⟨c, hc, rfl⟩ := List.mem_map.mp ha
  have hkind : kind (n.sibling c) = .type := Language.type_of_isAnonymousClass hanonymous
  -- a qualified name has the name of each class above as a part
  have hpart : ∀ q, qualifiedName n = some q → ∃ s before after, name (n.sibling c) = some s ∧
      after ≠ [] ∧ q = ".".intercalate (before ++ s :: after) := by
    intro q hq
    obtain ⟨-, -, hqualify⟩ := FileNode.qualifiedName_eq_some_iff.mp hq
    exact exists_part_of_qualify hqualify hc hkind
  refine ⟨(FileNode.qualifiedName_eq_none_iff hkind).mpr (Or.inl hanonymous), ?_, hpart⟩
  intro hconstant
  have hname : name (n.sibling c) = none :=
    Language.name_of_isAnonymousClass n.file.source hanonymous hconstant
  apply Option.eq_none_iff_forall_ne_some.mpr
  intro q hq
  obtain ⟨s, -, -, hs, -⟩ := hpart q hq
  cases hname.symm.trans hs

/-- A class in the body of a constant of an enum. -/
def enumConstantFile : SourceFile where
  path := "src/A.java"
  source := "class A \x7b enum B \x7b X \x7b class C \x7b void c() \x7b\x7d \x7d \x7d ; class D \x7b void d() \x7b\x7d \x7d \x7d \x7d"
  language := .java
  tree :=
    .node ⟨"program", true, 0, 78, []⟩ [
      .node ⟨"class_declaration", true, 0, 78, []⟩ [
        .leaf ⟨"class", false, 0, 5, []⟩,
        .leaf ⟨"identifier", true, 6, 7, [.name]⟩,
        .node ⟨"class_body", true, 8, 78, [.body]⟩ [
          .leaf ⟨"\x7b", false, 8, 9, []⟩,
          .node ⟨"enum_declaration", true, 10, 76, []⟩ [
            .leaf ⟨"enum", false, 10, 14, []⟩,
            .leaf ⟨"identifier", true, 15, 16, [.name]⟩,
            .node ⟨"enum_body", true, 17, 76, [.body]⟩ [
              .leaf ⟨"\x7b", false, 17, 18, []⟩,
              .node ⟨"enum_constant", true, 19, 48, []⟩ [
                .leaf ⟨"identifier", true, 19, 20, [.name]⟩,
                .node ⟨"class_body", true, 21, 48, [.body]⟩ [
                  .leaf ⟨"\x7b", false, 21, 22, []⟩,
                  .node ⟨"class_declaration", true, 23, 46, []⟩ [
                    .leaf ⟨"class", false, 23, 28, []⟩,
                    .leaf ⟨"identifier", true, 29, 30, [.name]⟩,
                    .node ⟨"class_body", true, 31, 46, [.body]⟩ [
                      .leaf ⟨"\x7b", false, 31, 32, []⟩,
                      .node ⟨"method_declaration", true, 33, 44, []⟩ [
                        .leaf ⟨"void_type", true, 33, 37, [.type]⟩,
                        .leaf ⟨"identifier", true, 38, 39, [.name]⟩,
                        .node ⟨"formal_parameters", true, 39, 41, [.parameters]⟩ [
                          .leaf ⟨"(", false, 39, 40, []⟩,
                          .leaf ⟨")", false, 40, 41, []⟩],
                        .node ⟨"block", true, 42, 44, [.body]⟩ [
                          .leaf ⟨"\x7b", false, 42, 43, []⟩,
                          .leaf ⟨"\x7d", false, 43, 44, []⟩]],
                      .leaf ⟨"\x7d", false, 45, 46, []⟩]],
                  .leaf ⟨"\x7d", false, 47, 48, []⟩]],
              .node ⟨"enum_body_declarations", true, 49, 74, []⟩ [
                .leaf ⟨";", false, 49, 50, []⟩,
                .node ⟨"class_declaration", true, 51, 74, []⟩ [
                  .leaf ⟨"class", false, 51, 56, []⟩,
                  .leaf ⟨"identifier", true, 57, 58, [.name]⟩,
                  .node ⟨"class_body", true, 59, 74, [.body]⟩ [
                    .leaf ⟨"\x7b", false, 59, 60, []⟩,
                    .node ⟨"method_declaration", true, 61, 72, []⟩ [
                      .leaf ⟨"void_type", true, 61, 65, [.type]⟩,
                      .leaf ⟨"identifier", true, 66, 67, [.name]⟩,
                      .node ⟨"formal_parameters", true, 67, 69, [.parameters]⟩ [
                        .leaf ⟨"(", false, 67, 68, []⟩,
                        .leaf ⟨")", false, 68, 69, []⟩],
                      .node ⟨"block", true, 70, 72, [.body]⟩ [
                        .leaf ⟨"\x7b", false, 70, 71, []⟩,
                        .leaf ⟨"\x7d", false, 71, 72, []⟩]],
                    .leaf ⟨"\x7d", false, 73, 74, []⟩]]],
              .leaf ⟨"\x7d", false, 75, 76, []⟩]],
          .leaf ⟨"\x7d", false, 77, 78, []⟩]]]

/-- The class has the name of the constant in its qualified name, which the constant itself lacks. -/
theorem qualifiedName_below_anonymousClass_enumConstantFile :
    ∃ n ∈ enumConstantFile.nodes, ∃ a ∈ ancestors n, a.isAnonymousClass = true ∧
      qualifiedName a = none ∧ ∃ before after, after ≠ [] ∧
        qualifiedName n = some (".".intercalate (before ++ "X" :: after)) := by
  have hclass : ∃ n ∈ enumConstantFile.nodes, qualifiedName n = some "A.B.X.C" ∧
      ∃ a ∈ ancestors n, a.isAnonymousClass = true ∧ name a = some "X" := by
    rw [SourceFile.nodes_eq_walk]
    decide +kernel
  obtain ⟨n, hn, hq, a, ha, hanonymous, hname⟩ := hclass
  obtain ⟨hnone, -, hpart⟩ := qualifiedName_below_anonymousClass n a ha hanonymous
  obtain ⟨s, before, after, hs, hafter, hparts⟩ := hpart "A.B.X.C" hq
  obtain rfl : s = "X" := Option.some.inj (hs.symm.trans hname)
  exact ⟨n, hn, a, ha, hanonymous, hnone, before, after, hafter, by rw [hq, hparts]⟩

/-- A class below an anonymous class may have a qualified name. -/
theorem exists_qualifiedName_below_anonymousClass :
    ∃ n ∈ enumConstantFile.nodes, kind n = .type ∧
      (∃ a ∈ ancestors n, a.isAnonymousClass = true ∧ qualifiedName a = none) ∧
      qualifiedName n = some "A.B.X.C" := by
  rw [SourceFile.nodes_eq_walk]
  decide +kernel

end DeclScribe
