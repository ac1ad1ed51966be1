import DeclScribe.Proofs.Comments.Files

/-!
Comments in Java files. The type of a parameter of variable arity has no role in the grammar and is
found by what it is not, so a comment that stands in front of it counts as the type. Nothing but
types depends on comments in the descriptions of a file, and types do not where no comment stands
there.
-/

namespace DeclScribe

open SourceNode Descent Describe Syntax

namespace Syntax.Java

/-- What counts as the type of a parameter of variable arity. -/
def spreadType (c : Cursor) : Option Cursor :=
  c.namedChildren.find? fun d => d.kind != "modifiers" && d.kind != "variable_declarator"

theorem kind_of_spread_parameter {c : Cursor} (h : c.kind = "spread_parameter") :
    kind c = .parameter := by
  simp [kind, typeKinds, methodKinds, formalKinds, isAnonymousClass, h]

variable {gone : Cursor → Bool} (source : String) (h : OnlyComments gone)

section Kinds

include h

theorem isAnonymousClass_kept (c : Cursor) :
    isAnonymousClass (c.kept gone) = isAnonymousClass c := by
  rw [isAnonymousClass, Cursor.kind_kept, h.hasChildOfKind_kept (by decide), isAnonymousClass]

/-- The parameter of a lambda is told from other names by its place. -/
theorem isLambdaIdentifier_kept {c : Cursor} (hc : c.Placed) :
    isLambdaIdentifier (c.kept gone) = isLambdaIdentifier c := by
  rw [isLambdaIdentifier, isLambdaIdentifier, Cursor.kind_kept, Cursor.parent_kept]
  cases hkind : c.kind == "identifier" with
  | false => rfl
  | true =>
    have hstay : gone c = false := h.stays_of_kind (by decide) (beq_iff_eq.mp hkind)
    cases hp : c.parent with
    | none => rfl
    | some p =>
      have hplaces : ((p.kept gone).childByField .parameters).any (·.isAt (c.kept gone)) =
          (p.childByField .parameters).any (·.isAt c) := by
        rw [h.childByField_kept]
        cases hd : p.childByField .parameters with
        | none => rfl
        | some d =>
          have hfield := List.find?_some hd
          exact Cursor.isAt_kept_of_mem_children (List.mem_of_find?_eq_some hd) (hc p hp)
            (h.stays_of_field hfield) hstay
      simp only [Option.map_some, Cursor.kind_kept, hplaces]

theorem kind_kept {c : Cursor} (hc : c.Placed) : kind (c.kept gone) = kind c := by
  rw [kind, isAnonymousClass_kept h, isLambdaIdentifier_kept h hc, Cursor.kind_kept, kind]

end Kinds

section Names

include h

theorem nameNode_kept (c : Cursor) :
    nameNode (c.kept gone) = (nameNode c).map (Cursor.kept gone) := by
  unfold nameNode
  rw [Cursor.kind_kept, h.childOfKind_kept (by decide), h.bind_childByField_kept,
    h.childByField_kept, ← Option.map_or]
  split
  · rfl
  · rfl
  · rfl
  · rfl

theorem name_kept (c : Cursor) : name source (c.kept gone) = name source c := by
  have htext : Cursor.text source ∘ Cursor.kept gone = Cursor.text source :=
    funext (Cursor.text_kept gone source)
  rw [name, nameNode_kept h, Option.map_map, htext, name]

theorem package_kept (c : Cursor) : package source (c.kept gone) = package source c := by
  have hfound (d : Cursor) := h.find?_namedChildren_kept
    ["scoped_identifier", "identifier"] (by decide) d
  rw [package, Cursor.kind_kept, h.childOfKind_kept (by decide), package]
  split
  · cases c.childOfKind "package_declaration" with
    | none => rfl
    | some declaration =>
      simp only [Option.map_some, Option.bind_eq_bind, Option.bind_some, hfound]
      cases declaration.namedChildren.find? fun d =>
          ["scoped_identifier", "identifier"].contains d.kind with
      | none => rfl
      | some found => simp only [Option.map_some, Option.bind_some, typeTextOf_kept]
  · rfl

theorem qualifiedName_kept {t : Tree} {c : Cursor} (hc : c ∈ (Cursor.root t).subtree) :
    qualifiedName source (c.kept gone) = qualifiedName source c := by
  have hqualify := qualify_kept kind (package source) (name_kept source h c)
    fun a ha => by
      have hplaced : a.Placed := by
        rcases Cursor.mem_of_mem_ancestors hc ha with hmem | hmem
        · exact Cursor.placed_of_mem_subtree hmem
        · cases hmem
      exact ⟨kind_kept h hplaced, name_kept source h a, package_kept source h a⟩
  rw [qualifiedName, kind_kept h (Cursor.placed_of_mem_subtree hc), isAnonymousClass_kept h,
    hqualify, qualifiedName]

end Names

section Modifiers

include h

/-- Modifiers are unnamed nodes, so comments are none. -/
theorem writtenModifiers_kept (c : Cursor) :
    writtenModifiers (c.kept gone) = writtenModifiers c := by
  unfold writtenModifiers
  rw [h.childOfKind_kept (by decide)]
  cases c.childOfKind "modifiers" with
  | none => rfl
  | some m =>
    have hunnamed : (m.kept gone).children.filter (!·.named) =
        (m.children.filter (!·.named)).map (Cursor.kept gone) := by
      rw [Cursor.children_kept]
      refine Cursor.filter_kept (fun d => by rw [Cursor.named_kept]) fun d hd => ?_
      refine Bool.eq_false_iff.mpr fun hgone => ?_
      rw [h.named hgone] at hd
      cases hd
    have hkind : Cursor.kind ∘ Cursor.kept gone = Cursor.kind := funext (Cursor.kind_kept gone)
    simp only [Option.map_some, hunnamed, List.map_map, hkind]

theorem modifiers_kept (c : Cursor) : modifiers (c.kept gone) = modifiers c := by
  have hmember : isInterfaceMember (c.kept gone) = isInterfaceMember c := by
    rw [isInterfaceMember, Cursor.parent_kept, isInterfaceMember]
    cases c.parent with
    | none => rfl
    | some body => simp only [Option.map_some, Cursor.kind_kept, Cursor.parent_kept,
        Option.isSome_map]
  rw [modifiers, hmember, writtenModifiers_kept h, Cursor.kind_kept, h.childByField_kept,
    Option.isNone_map, modifiers]

end Modifiers

section Parameters

include h

theorem formals_kept (list : Option Cursor) :
    formals (list.map (Cursor.kept gone)) = (formals list).map (Cursor.kept gone) := by
  cases list with
  | none => rfl
  | some p => exact h.childrenOfKinds_kept (by decide) p

theorem parameters_kept (c : Cursor) :
    parameters (c.kept gone) = (parameters c).map (Cursor.kept gone) := by
  unfold parameters
  rw [Cursor.kind_kept, h.childByField_kept]
  split
  · exact formals_kept h _
  · exact formals_kept h _
  · -- the components of the record around a compact constructor
    rw [Cursor.parent_kept, Cursor.bind_parent_kept, Cursor.filter_kind_kept]
    simp only [h.bind_childByField_kept]
    exact formals_kept h _
  · cases c.childByField .parameters with
    | none => rfl
    | some p =>
      simp only [Option.map_some, Cursor.kind_kept]
      split
      · rfl
      · split
        · exact h.childrenOfKinds_kept (by decide) p
        · exact h.childrenOfKinds_kept (by decide) p
  · rfl

omit h in
theorem placed_of_mem_childrenOfKinds {c p : Cursor} {ks : List String}
    (hp : p ∈ c.childrenOfKinds ks) : p.Placed :=
  Cursor.placed_of_mem_children (List.mem_filter.mp (List.mem_filter.mp hp).1).1

omit h in
theorem placed_of_mem_formals {list : Option Cursor} {p : Cursor} (hp : p ∈ formals list) :
    p.Placed := by
  cases list with
  | none => cases hp
  | some c => exact placed_of_mem_childrenOfKinds hp

omit h in
/-- Parameters are children of the node that lists them. -/
theorem placed_of_mem_parameters {c p : Cursor} (hp : p ∈ parameters c) : p.Placed := by
  unfold parameters at hp
  split at hp
  · exact placed_of_mem_formals hp
  · exact placed_of_mem_formals hp
  · exact placed_of_mem_formals hp
  · cases hlist : c.childByField .parameters with
    | none =>
      rw [hlist] at hp
      cases hp
    | some list =>
      simp only [hlist] at hp
      split at hp
      · rw [List.mem_singleton.mp hp]
        exact Cursor.placed_of_mem_children (List.mem_of_find?_eq_some hlist)
      · split at hp
        · exact placed_of_mem_childrenOfKinds hp
        · exact placed_of_mem_childrenOfKinds hp
  · cases hp

end Parameters

section Types

theorem spreadType_kept {c : Cursor} (hspread : ∀ d ∈ spreadType c, gone d = false) :
    spreadType (c.kept gone) = (spreadType c).map (Cursor.kept gone) := by
  unfold spreadType at hspread ⊢
  rw [Cursor.namedChildren_kept]
  exact Cursor.find?_kept (fun d => by rw [Cursor.kind_kept]) hspread

include h

/-- The type text of a node is the same unless a comment that goes counts as a type. -/
theorem typeText_kept {c : Cursor} (hc : c.Placed)
    (hspread : c.kind = "spread_parameter" → ∀ d ∈ spreadType c, gone d = false) :
    typeText source (c.kept gone) = typeText source c := by
  have htype : typeTextOf source ∘ Cursor.kept gone = typeTextOf source :=
    funext (typeTextOf_kept gone source)
  unfold typeText
  rw [Cursor.kind_kept, isLambdaIdentifier_kept h hc, h.childByField_kept, h.childByField_kept,
    Option.map_map, htype]
  split
  case h_1 | h_2 =>
    cases c.childByField .type with
    | none => rfl
    | some type => simp only [Option.map_some, Option.bind_eq_bind, Option.bind_some,
        typeTextOf_kept]
  case h_3 hkind =>
    change (spreadType (c.kept gone)).bind _ = (spreadType c).bind _
    rw [spreadType_kept (hspread hkind)]
    cases spreadType c with
    | none => rfl
    | some type => simp only [Option.map_some, Option.bind_some, typeTextOf_kept]
  case h_4 => rfl
  case h_5 => rfl

end Types

end Syntax.Java

namespace SourceFile

/-- A Java node agrees with what it is in the pruned file, if no comment that goes counts as the
type of a parameter where types count. -/
theorem agrees_without_java {settings : AttributeSettings} {types : Bool} {gone : Cursor → Bool}
    {f : SourceFile}
    (hlanguage : f.language = .java) (hgone : OnlyComments gone) {c : Cursor}
    (hc : c ∈ (Cursor.root f.tree).subtree)
    (hspread : types = true → IsDeclaration (f.node c) → ∀ p ∈ parameters (f.node c),
      p.cursor.kind = "spread_parameter" → ∀ d ∈ Java.spreadType p.cursor, gone d = false) :
    Agrees settings types (f.node c) ((f.node c).without gone) := by
  have hplaced : c.Placed := Cursor.placed_of_mem_subtree hc
  obtain ⟨path, source, language, tree, protocol⟩ := f
  cases hlanguage
  exact {
    kind_eq := Java.kind_kept hgone hplaced
    name_eq := Java.name_kept source hgone c
    qualifiedName_eq := Java.qualifiedName_kept source hgone hc
    hasModifier_eq := fun k _ => congrArg (List.contains · k) (Java.modifiers_kept hgone c)
    isConstructor_eq := congrArg
      ["constructor_declaration", "compact_constructor_declaration"].contains
      (Cursor.kind_kept gone c)
    isInterface_eq := congrArg
      ["interface_declaration", "annotation_type_declaration"].contains (Cursor.kind_kept gone c)
    typeText_eq := by
      intro _ hn
      refine Java.typeText_kept source hgone hplaced fun hkind => ?_
      -- a parameter is no declaration
      have hparameter : Java.kind c = .parameter := Java.kind_of_spread_parameter hkind
      rcases hn with hn | hn
      · cases hparameter.symm.trans hn
      · cases hparameter.symm.trans hn
    parameters_eq := by
      intro hn
      refine FileNode.parameterPairs_without (Java.parameters_kept hgone c)
        (fun p hp => ?_) fun htypes p hp => ?_
      · obtain ⟨d, hd, rfl⟩ := List.mem_map.mp hp
        exact Java.name_kept source hgone d
      · have hfree := hspread htypes hn p hp
        obtain ⟨d, hd, rfl⟩ := List.mem_map.mp hp
        exact Java.typeText_kept source hgone (Java.placed_of_mem_parameters hd) hfree
    text_eq := Cursor.text_kept gone source c
    origin_eq := rfl
    navigationOffset_eq := FileNode.navigationOffset_without (Java.nameNode_kept hgone c) }

/-- Taking comments out of the tree of a Java file does not change what is listed but for types,
under all settings, and it changes no type either if no comment stands in front of the type of a
parameter of variable arity. -/
theorem descriptions_without_java_comments (settings : AttributeSettings) (f : SourceFile)
    (hlanguage : f.language = .java) (gone : Cursor → Bool)
    (hgone : ∀ c ∈ f.root.cursor.inside, gone c = true →
      c.isComment = true ∧ c.focus.label.fields = []) :
    ((f.without gone).descriptions settings).map (Description.typed false) =
        (f.descriptions settings).map (Description.typed false) ∧
      ((∀ n ∈ f.nodes, IsDeclaration n → ∀ p ∈ parameters n,
          p.cursor.kind = "spread_parameter" → ∀ d ∈ Java.spreadType p.cursor, gone d = false) →
        (f.without gone).descriptions settings = f.descriptions settings) := by
  refine descriptions_without_of_agrees_among hgone fun honly types hfree n hn => ?_
  obtain ⟨c, hc, rfl⟩ := List.mem_map.mp hn
  refine agrees_without_java hlanguage honly hc fun htypes hdecl p hp hkind d hd => ?_
  exact among_eq_false (hfree htypes _ hn hdecl p hp hkind d hd)

/-- A Java class with comments in its body, in front of the type of a parameter of variable arity
and behind it. -/
def commentedJavaFile : SourceFile where
  path := "src/A.java"
  source := "class A \x7b /*a*/ void f(final /*b*/ String... xs /*c*/) /*d*/ \x7b\x7d \x7d"
  language := .java
  tree :=
    .node ⟨"program", true, 0, 65, []⟩ [
      .node ⟨"class_declaration", true, 0, 65, []⟩ [
        .leaf ⟨"class", false, 0, 5, []⟩,
        .leaf ⟨"identifier", true, 6, 7, [.name]⟩,
        .node ⟨"class_body", true, 8, 65, [.body]⟩ [
          .leaf ⟨"\x7b", false, 8, 9, []⟩,
          .leaf ⟨"block_comment", true, 10, 15, []⟩,
          .node ⟨"method_declaration", true, 16, 63, []⟩ [
            .leaf ⟨"void_type", true, 16, 20, [.type]⟩,
            .leaf ⟨"identifier", true, 21, 22, [.name]⟩,
            .node ⟨"formal_parameters", true, 22, 54, [.parameters]⟩ [
              .leaf ⟨"(", false, 22, 23, []⟩,
              .node ⟨"spread_parameter", true, 23, 47, []⟩ [
                .node ⟨"modifiers", true, 23, 28, []⟩ [
                  .leaf ⟨"final", false, 23, 28, []⟩],
                .leaf ⟨"block_comment", true, 29, 34, []⟩,
                .leaf ⟨"type_identifier", true, 35, 41, []⟩,
                .leaf ⟨"...", false, 41, 44, []⟩,
                .node ⟨"variable_declarator", true, 45, 47, []⟩ [
                  .leaf ⟨"identifier", true, 45, 47, [.name]⟩]],
              .leaf ⟨"block_comment", true, 48, 53, []⟩,
              .leaf ⟨")", false, 53, 54, []⟩],
            .leaf ⟨"block_comment", true, 55, 60, []⟩,
            .node ⟨"block", true, 61, 63, [.body]⟩ [
              .leaf ⟨"\x7b", false, 61, 62, []⟩,
              .leaf ⟨"\x7d", false, 62, 63, []⟩]],
          .leaf ⟨"\x7d", false, 64, 65, []⟩]]]

/-- All comments of the file but the one in front of the type may go. -/
theorem descriptions_without_java_comments_commentedJavaFile :
    (commentedJavaFile.without fun c => c.isComment && c.start != 29).descriptions {} =
      commentedJavaFile.descriptions {} := by
  refine (descriptions_without_java_comments {} commentedJavaFile rfl _ ?_).2 ?_
  · rw [Cursor.inside_eq_tail, Cursor.subtree_eq_walk]
    decide +kernel
  · rw [nodes_eq_walk]
    decide +kernel

/-- The comment in front of the type is what the parameter is said to be of type. -/
theorem exists_java_comment_read_as_type :
    (∀ c ∈ commentedJavaFile.root.cursor.inside, c.isComment = true →
      c.focus.label.fields = []) ∧
    (commentedJavaFile.descriptions {}).map (·.parameters.types) = [["/*b*/..."]] ∧
    ((commentedJavaFile.without Cursor.isComment).descriptions {}).map (·.parameters.types) =
      [["String..."]] := by
  refine ⟨?_, ?_, ?_⟩
  · rw [Cursor.inside_eq_tail, Cursor.subtree_eq_walk]
    decide +kernel
  · rw [descriptions, listAll_eq_filterMap, preorder_root_eq_walk]
    decide +kernel
  · rw [descriptions, listAll_eq_filterMap, preorder_root_eq_walk]
    decide +kernel

end SourceFile

end DeclScribe
