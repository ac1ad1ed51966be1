import DeclScribe.Proofs.Comments.Files

/-!
Comments in Kotlin files. What stands first behind the colon of a declaration counts as its type, a
comment too. Nothing but types depends on comments in the descriptions of a file, and types do not
where no comment stands behind a colon.
-/

namespace DeclScribe

open SourceNode Descent Describe Syntax

namespace Syntax.Kotlin

/-- The keywords that decide which other ones are implied. -/
def decisive : List String := visibilities ++ opening

/-- The nodes whose type is written behind a colon. -/
def annotatedKinds : List String :=
  ["function_declaration", "anonymous_function", "parameter", "class_parameter",
    "variable_declaration"]

/-- Lists that have the same words, as far as some words go. -/
def SameOn (ks xs ys : List String) : Prop := ∀ k ∈ ks, k ∈ xs ↔ k ∈ ys

namespace SameOn

variable {ks xs ys xs' ys' : List String}

theorem any_contains {ws : List String} (h : SameOn ks xs ys) (hws : ws ⊆ ks) :
    ws.any xs.contains = ws.any ys.contains := by
  rw [Bool.eq_iff_iff, List.any_eq_true, List.any_eq_true]
  refine exists_congr fun w => and_congr_right fun hw => ?_
  rw [List.contains_iff_mem, List.contains_iff_mem, h w (hws hw)]

theorem append (h : SameOn ks xs ys) (zs : List String) : SameOn ks (xs ++ zs) (ys ++ zs) := by
  intro k hk
  rw [List.mem_append, List.mem_append, h k hk]

theorem adding (h : SameOn ks xs ys) (w : String) :
    SameOn ks (Syntax.adding w xs) (Syntax.adding w ys) := by
  have hmem (k : String) (zs : List String) : k ∈ Syntax.adding w zs ↔ k = w ∨ k ∈ zs := by
    unfold Syntax.adding
    split
    · next hw =>
      rw [List.contains_iff_mem] at hw
      exact ⟨Or.inr, fun hk => hk.elim (fun heq => heq ▸ hw) id⟩
    · rw [List.mem_append, List.mem_singleton, or_comm]
  intro k hk
  rw [hmem, hmem, h k hk]

theorem ite (h : SameOn ks xs ys) (h' : SameOn ks xs' ys') (b : Bool) :
    SameOn ks (if b then xs else xs') (if b then ys else ys') := by
  cases b with
  | true => exact h
  | false => exact h'

end SameOn

variable {gone : Cursor → Bool} (source : String)

theorem isIdentifier_kept (c : Cursor) : isIdentifier (c.kept gone) = isIdentifier c := by
  rw [isIdentifier, Cursor.kind_kept, isIdentifier]

theorem isLambdaParameter_kept (c : Cursor) :
    isLambdaParameter (c.kept gone) = isLambdaParameter c := by
  rw [isLambdaParameter, Cursor.kind_kept, Cursor.parent_kept, Option.any_map, isLambdaParameter]
  congr 2
  funext p
  exact congrArg (· == "lambda_parameters") (Cursor.kind_kept gone p)

theorem kind_kept (c : Cursor) : kind (c.kept gone) = kind c := by
  rw [kind, isLambdaParameter_kept, Cursor.kind_kept, kind]

variable (h : OnlyComments gone)
include h

section Names

theorem identifier_kept (c : Cursor) :
    identifier (c.kept gone) = (identifier c).map (Cursor.kept gone) := by
  have hfind : (c.kept gone).namedChildren.find? isIdentifier =
      (c.namedChildren.find? isIdentifier).map (Cursor.kept gone) :=
    h.find?_namedChildren_kept ["identifier", "simple_identifier"] (by decide) c
  rw [identifier, h.childByField_kept, hfind, identifier, Option.map_or]

theorem nameNode_kept (c : Cursor) :
    nameNode (c.kept gone) = (nameNode c).map (Cursor.kept gone) := by
  rw [nameNode, Cursor.kind_kept, identifier_kept h, nameNode]
  split
  · rfl
  · rfl

theorem ownName_kept (c : Cursor) : ownName source (c.kept gone) = ownName source c := by
  have htext : Cursor.text source ∘ Cursor.kept gone = Cursor.text source :=
    funext (Cursor.text_kept gone source)
  rw [ownName, identifier_kept h, nameNode_kept h, isIdentifier_kept, Cursor.kind_kept,
    typeTextOf_kept, Cursor.text_kept, Option.map_map, Option.map_map, htext, ownName]

/-- A constructor is named as its class, which has its place above it. -/
theorem name_kept (c : Cursor) : name source (c.kept gone) = name source c := by
  have hkind : (fun a => decide (kind a = .type)) ∘ Cursor.kept gone =
      fun a => decide (kind a = .type) := by
    funext a
    rw [Function.comp_apply, kind_kept]
  rw [name, Cursor.kind_kept, Cursor.ancestors_kept, List.find?_map, hkind, Option.bind_map,
    ownName_kept source h, name]
  congr 2
  funext a
  exact ownName_kept source h a

theorem package_kept (c : Cursor) : package source (c.kept gone) = package source c := by
  rw [package, Cursor.kind_kept, h.childOfKind_kept (by decide), package]
  cases c.childOfKind "package_header" with
  | none => rfl
  | some header => simp only [Option.map_some, Option.bind_eq_bind, Option.bind_some,
      Cursor.text_kept]

theorem qualifiedName_kept (c : Cursor) :
    qualifiedName source (c.kept gone) = qualifiedName source c := by
  have hqualify := qualify_kept kind (package source) (name_kept source h c) fun a _ =>
    ⟨kind_kept a, name_kept source h a, package_kept source h a⟩
  rw [qualifiedName, kind_kept, Cursor.kind_kept, hqualify, qualifiedName]

end Names

section Parameters

theorem bindsImplicit_kept (c : Cursor) : bindsImplicit (c.kept gone) = bindsImplicit c := by
  rw [bindsImplicit, Cursor.kind_kept, h.hasChildOfKind_kept (by decide), bindsImplicit]

theorem stays_of_isIdentifier {c : Cursor} (hc : isIdentifier c = true) : gone c = false :=
  h.stays_of_kinds (by decide) hc

theorem stays_of_bindsImplicit {c : Cursor} (hc : bindsImplicit c = true) : gone c = false := by
  rw [bindsImplicit, Bool.and_eq_true] at hc
  exact h.stays_of_kind (by decide) (beq_iff_eq.mp hc.1)

/-- A node that goes is no identifier and nothing is below it, so the search passes it by. -/
theorem findImplicit_kept {lambda : Cursor} {cs : List Cursor}
    (hcs : ∀ c ∈ cs, c ∈ preorder lambda) :
    findImplicit source (lambda.kept gone) ((cs.filter (!gone ·)).map (Cursor.kept gone)) =
      (findImplicit source lambda cs).map (Cursor.kept gone) := by
  induction cs using findImplicit.induct source lambda with
  | case1 => simp [findImplicit]
  | case2 c rest hfound =>
    have hstay : gone c = false :=
      stays_of_isIdentifier h (Bool.and_eq_true_iff.mp hfound).1
    rw [List.filter_cons_of_pos (by simp [hstay]), List.map_cons, findImplicit, findImplicit,
      isIdentifier_kept, Cursor.text_kept, if_pos hfound, if_pos hfound, Option.map_some]
  | case3 c rest hother hown ih =>
    have hstay : gone c = false :=
      stays_of_bindsImplicit h (Bool.and_eq_true_iff.mp hown).2
    obtain ⟨hc, hrest⟩ := List.forall_mem_cons.mp hcs
    rw [List.filter_cons_of_pos (by simp [hstay]), List.map_cons, findImplicit, findImplicit,
      isIdentifier_kept, Cursor.text_kept, bindsImplicit_kept h,
      Cursor.isAt_kept_of_mem_preorder hc, if_neg hother, if_neg hother, if_pos hown, if_pos hown,
      ih hrest]
  | case4 c rest hother hgo ih =>
    obtain ⟨hc, hrest⟩ := List.forall_mem_cons.mp hcs
    have hbelow : ∀ d ∈ children c ++ rest, d ∈ preorder lambda := by
      intro d hd
      rcases List.mem_append.mp hd with hd | hd
      · exact mem_preorder_trans hc (mem_preorder_of_mem_children hd)
      · exact hrest d hd
    have ih := ih hbelow
    rw [List.filter_append, List.map_append] at ih
    rw [findImplicit, if_neg hother, if_neg hgo, ← ih]
    cases hgone : gone c with
    | true =>
      rw [List.filter_cons_of_neg (by simp [hgone]), h.descent_children_eq_nil hgone]
      rfl
    | false =>
      have hchildren : children (c.kept gone) =
          ((children c).filter (!gone ·)).map (Cursor.kept gone) := Cursor.namedChildren_kept gone c
      rw [List.filter_cons_of_pos (by simp [hgone]), List.map_cons, findImplicit,
        isIdentifier_kept, Cursor.text_kept, bindsImplicit_kept h,
        Cursor.isAt_kept_of_mem_preorder hc, if_neg hother, if_neg hgo, hchildren]

theorem implicitParameter_kept {lambda : Cursor} (hlambda : gone lambda = false) :
    implicitParameter source (lambda.kept gone) =
      (implicitParameter source lambda).map (Cursor.kept gone) := by
  have hself : ∀ c ∈ [lambda], c ∈ preorder lambda := fun c hc =>
    List.mem_singleton.mp hc ▸ mem_preorder_self lambda
  have hfind := findImplicit_kept source h hself
  rwa [List.filter_cons_of_pos (by simp [hlambda]), List.filter_nil, List.map_singleton] at hfind

theorem valueParameters_kept (list : Cursor) :
    valueParameters (list.kept gone) = (valueParameters list).map (Cursor.kept gone) := by
  unfold valueParameters
  rw [Cursor.namedChildren_kept]
  refine Cursor.filterMap_kept (fun d => ?_) fun d hd => ?_
  · rw [Cursor.kind_kept, h.childOfKind_kept (by decide)]
    split
    · rfl
    · split
      · rfl
      · rfl
  · have hkinds := h.contains_kind ["parameter", "function_value_parameter"] (by decide) hd
    simp only [List.contains_cons, List.contains_nil, Bool.or_false, Bool.or_eq_false_iff] at hkinds
    rw [if_neg (by simp [hkinds.1]), if_neg (by simp [hkinds.2])]

theorem classParameters_kept (c : Cursor) :
    classParameters (c.kept gone) = (classParameters c).map (Cursor.kept gone) := by
  unfold classParameters
  rw [h.childOfKind_kept (by decide), Option.getD_map, h.childrenOfKinds_kept (by decide)]

theorem parameters_kept {c : Cursor} (hc : gone c = false) :
    parameters source (c.kept gone) = (parameters source c).map (Cursor.kept gone) := by
  unfold parameters
  rw [Cursor.kind_kept, classParameters_kept h, implicitParameter_kept source h hc]
  split
  case h_1 | h_2 | h_3 =>
    rw [h.childOfKind_kept (by decide)]
    cases c.childOfKind "function_value_parameters" with
    | none => rfl
    | some list => exact valueParameters_kept h list
  case h_4 => rfl
  case h_5 =>
    rw [h.childOfKind_kept (by decide)]
    cases c.childOfKind "lambda_parameters" with
    | none => exact Option.toList_map ..
    | some list => exact h.childrenOfKinds_kept (by decide) list
  case h_6 => rfl

end Parameters

section Types

theorem writtenType_kept {c : Cursor} (hcolon : ∀ d, c.afterColon = some d → gone d = false) :
    writtenType source (c.kept gone) = writtenType source c := by
  have htype : typeTextOf source ∘ Cursor.kept gone = typeTextOf source :=
    funext (typeTextOf_kept gone source)
  rw [writtenType, h.afterColon_kept hcolon, Option.map_map, htype, writtenType]

theorem hasExpressionBody_kept (c : Cursor) :
    hasExpressionBody source (c.kept gone) = hasExpressionBody source c := by
  rw [hasExpressionBody, h.childOfKind_kept (by decide), Option.any_map, hasExpressionBody]
  congr 1
  funext body
  rw [Cursor.text_kept]

/-- The type text of a node is the same unless a comment that goes stands where the type should. -/
theorem typeText_kept {c : Cursor}
    (hcolon : c.kind ∈ annotatedKinds → ∀ d, c.afterColon = some d → gone d = false) :
    typeText source (c.kept gone) = typeText source c := by
  have hwritten (hkind : c.kind ∈ annotatedKinds) :
      writtenType source (c.kept gone) = writtenType source c :=
    writtenType_kept source h (hcolon hkind)
  unfold typeText
  rw [Cursor.kind_kept, hasExpressionBody_kept source h, isIdentifier_kept]
  split
  case h_1 hkind | h_2 hkind | h_3 hkind | h_4 hkind | h_5 hkind =>
    rw [hwritten (by simp [hkind, annotatedKinds])]
  case h_6 => rfl
  case h_7 => rfl

end Types

section Modifiers

theorem isInterface_kept (c : Cursor) : isInterface (c.kept gone) = isInterface c := by
  rw [isInterface, Cursor.kind_kept, h.hasChildOfKind_kept (by decide), isInterface]

theorem isInterfaceMember_kept (c : Cursor) :
    isInterfaceMember (c.kept gone) = isInterfaceMember c := by
  unfold isInterfaceMember
  rw [Cursor.parent_kept, Cursor.filter_kind_kept, Cursor.bind_parent_kept, Option.any_map]
  simp only [isInterface_kept h]

omit h in
theorem mem_writtenModifiers {c : Cursor} {k : String} :
    k ∈ writtenModifiers source c ↔ k ≠ "" ∧ ∃ m, c.childOfKind "modifiers" = some m ∧
      ∃ d ∈ m.children, d.kind ≠ "annotation" ∧ Text.trim (d.text source) = k := by
  unfold writtenModifiers
  cases c.childOfKind "modifiers" with
  | none => simp
  | some m =>
    simp only [List.mem_filter, List.mem_map, bne_iff_ne, decide_eq_true_eq, Option.some.injEq,
      exists_eq_left', and_assoc]
    exact and_comm

/-- A word that is the text of no comment that goes is written where it was written before. -/
theorem mem_writtenModifiers_kept {k : String}
    (hk : ∀ d, gone d = true → Text.trim (d.text source) ≠ k) (c : Cursor) :
    k ∈ writtenModifiers source (c.kept gone) ↔ k ∈ writtenModifiers source c := by
  rw [mem_writtenModifiers, mem_writtenModifiers, h.childOfKind_kept (by decide)]
  refine and_congr_right fun _ => ?_
  constructor
  · rintro ⟨_, hkept, d, hd, hannotation, htext⟩
    obtain ⟨m, hm, rfl⟩ := Option.map_eq_some_iff.mp hkept
    rw [Cursor.children_kept] at hd
    obtain ⟨e, he, rfl⟩ := List.mem_map.mp hd
    rw [Cursor.kind_kept] at hannotation
    rw [Cursor.text_kept] at htext
    exact ⟨m, hm, e, (List.mem_filter.mp he).1, hannotation, htext⟩
  · rintro ⟨m, hm, d, hd, hannotation, htext⟩
    have hstay : gone d = false := Bool.eq_false_iff.mpr fun hgone => hk d hgone htext
    refine ⟨m.kept gone, by rw [hm, Option.map_some], d.kept gone,
      Cursor.kept_mem_children hd hstay, ?_, ?_⟩
    · rwa [Cursor.kind_kept]
    · rwa [Cursor.text_kept]

/-- Modifiers are implied by the kind of a declaration, by where it stands and by the decisive
keywords among the written ones, and none of these is a comment's. -/
theorem sameOn_modifiers_kept {ks : List String} (hdecisive : decisive ⊆ ks)
    (hks : ∀ d, gone d = true → Text.trim (d.text source) ∉ ks) (c : Cursor) :
    SameOn ks (modifiers source (c.kept gone)) (modifiers source c) := by
  have hvisibilities : visibilities ⊆ ks := fun k hk => hdecisive (by simp [decisive, hk])
  have hopening : opening ⊆ ks := fun k hk => hdecisive (by simp [decisive, hk])
  have hwritten : SameOn ks (writtenModifiers source (c.kept gone)) (writtenModifiers source c) :=
    fun k hk => mem_writtenModifiers_kept source h (fun d hd htext => hks d hd (htext ▸ hk)) c
  unfold modifiers isConstructor
  simp only [kind_kept, Cursor.kind_kept, isInterfaceMember_kept h, isInterface_kept h,
    h.hasChildOfKind_kept (k := "function_body") (by decide)]
  generalize writtenModifiers source (c.kept gone) = xs at hwritten ⊢
  generalize writtenModifiers source c = ys at hwritten ⊢
  have hvisible : SameOn ks (if visibilities.any xs.contains then xs else xs ++ ["public"])
      (if visibilities.any ys.contains then ys else ys ++ ["public"]) := by
    rw [hwritten.any_contains hvisibilities]
    exact hwritten.ite (hwritten.append _) _
  have hdeclared := (hvisible.adding "abstract").ite hvisible
    (isInterfaceMember c && (c.kind == "function_declaration" && !c.hasChildOfKind "function_body"))
  refine hwritten.ite (hvisible.ite ?_ _) _
  rw [hdeclared.any_contains hopening]
  exact hdeclared.ite (hdeclared.adding "final") _

end Modifiers

end Syntax.Kotlin

namespace SourceFile

/-- A Kotlin node agrees with what it is in the pruned file, if no comment that goes has a keyword
for its text and, where types count, none stands where the type of the node or of a parameter
should. -/
theorem agrees_without_kotlin {settings : AttributeSettings} {types : Bool}
    {gone : Cursor → Bool} {n : FileNode}
    (hlanguage : n.file.language = .kotlin) (hgone : OnlyComments gone)
    (hwords : ∀ c, gone c = true →
      Text.trim (c.text n.file.source) ∉ settings.recognized ++ Kotlin.decisive)
    (hcolon : types = true → IsDeclaration n → ∀ p ∈ n :: parameters n,
      p.cursor.kind ∈ Kotlin.annotatedKinds → ∀ d ∈ p.cursor.afterColon, gone d = false) :
    Agrees settings types n (n.without gone) := by
  obtain ⟨⟨path, source, language, tree, protocol⟩, c⟩ := n
  cases hlanguage
  exact {
    kind_eq := Kotlin.kind_kept c
    name_eq := Kotlin.name_kept source hgone c
    qualifiedName_eq := Kotlin.qualifiedName_kept source hgone c
    hasModifier_eq := by
      intro k hk
      have hsame := Kotlin.sameOn_modifiers_kept source hgone (List.subset_append_right _ _)
        hwords c
      have hmem := hsame k (List.mem_append_left _ hk)
      change (Kotlin.modifiers source (c.kept gone)).contains k =
        (Kotlin.modifiers source c).contains k
      rw [Bool.eq_iff_iff, List.contains_iff_mem, List.contains_iff_mem, hmem]
    isConstructor_eq := congrArg Kotlin.constructorKinds.contains (Cursor.kind_kept gone c)
    isInterface_eq := Kotlin.isInterface_kept hgone c
    typeText_eq := fun htypes hn =>
      Kotlin.typeText_kept source hgone (hcolon htypes hn _ List.mem_cons_self)
    parameters_eq := by
      intro hn
      refine FileNode.parameterPairs_without
        (Kotlin.parameters_kept source hgone (stays_of_isDeclaration hgone hn))
        (fun p hp => ?_) fun htypes p hp => ?_
      · obtain ⟨d, hd, rfl⟩ := List.mem_map.mp hp
        exact Kotlin.name_kept source hgone d
      · have hfree := hcolon htypes hn p (List.mem_cons_of_mem _ hp)
        obtain ⟨d, hd, rfl⟩ := List.mem_map.mp hp
        exact Kotlin.typeText_kept source hgone hfree
    text_eq := Cursor.text_kept gone source c
    origin_eq := rfl
    navigationOffset_eq := FileNode.navigationOffset_without (Kotlin.nameNode_kept hgone c) }

/-- Taking comments out of the tree of a Kotlin file, none of which has a keyword for its text, does
not change what is listed but for types, and it changes no type either if no comment stands behind
the colon of a declaration or of a parameter. -/
theorem descriptions_without_kotlin_comments (settings : AttributeSettings) (f : SourceFile)
    (hlanguage : f.language = .kotlin) (gone : Cursor → Bool)
    (hgone : ∀ c ∈ f.root.cursor.inside, gone c = true →
      c.isComment = true ∧ c.focus.label.fields = [])
    (hwords : ∀ c ∈ f.root.cursor.inside, gone c = true →
      Text.trim (c.text f.source) ∉ settings.recognized ++ Kotlin.decisive) :
    ((f.without gone).descriptions settings).map (Description.typed false) =
        (f.descriptions settings).map (Description.typed false) ∧
      ((∀ n ∈ f.nodes, IsDeclaration n → ∀ p ∈ n :: parameters n,
          p.cursor.kind ∈ Kotlin.annotatedKinds → ∀ d ∈ p.cursor.afterColon, gone d = false) →
        (f.without gone).descriptions settings = f.descriptions settings) := by
  refine descriptions_without_of_agrees_among hgone fun honly types hfree n hn => ?_
  obtain ⟨c, hc, rfl⟩ := List.mem_map.mp hn
  refine agrees_without_kotlin hlanguage honly (fun d hd => ?_)
    fun htypes hdecl p hp hkind d hd => ?_
  · exact hwords d (among_eq_true_iff.mp hd).1 (among_eq_true_iff.mp hd).2
  · exact among_eq_false (hfree htypes _ hn hdecl p hp hkind d hd)

/-- A Kotlin function with comments in front of it, in front of its body and around the type of its
parameter. -/
def commentedKotlinFile : SourceFile where
  path := "src/A.kt"
  source := "/*a*/ fun f(x: /*b*/ Int /*c*/) /*d*/ \x7b\x7d"
  language := .kotlin
  tree :=
    .node ⟨"source_file", true, 0, 40, []⟩ [
      .leaf ⟨"block_comment", true, 0, 5, []⟩,
      .node ⟨"function_declaration", true, 6, 40, []⟩ [
        .leaf ⟨"fun", false, 6, 9, []⟩,
        .leaf ⟨"identifier", true, 10, 11, [.name]⟩,
        .node ⟨"function_value_parameters", true, 11, 31, []⟩ [
          .leaf ⟨"(", false, 11, 12, []⟩,
          .node ⟨"parameter", true, 12, 24, []⟩ [
            .leaf ⟨"identifier", true, 12, 13, []⟩,
            .leaf ⟨":", false, 13, 14, []⟩,
            .leaf ⟨"block_comment", true, 15, 20, []⟩,
            .node ⟨"user_type", true, 21, 24, []⟩ [
              .leaf ⟨"identifier", true, 21, 24, []⟩]],
          .leaf ⟨"block_comment", true, 25, 30, []⟩,
          .leaf ⟨")", false, 30, 31, []⟩],
        .leaf ⟨"block_comment", true, 32, 37, []⟩,
        .node ⟨"function_body", true, 38, 40, []⟩ [
          .node ⟨"block", true, 38, 40, []⟩ [
            .leaf ⟨"\x7b", false, 38, 39, []⟩,
            .leaf ⟨"\x7d", false, 39, 40, []⟩]]]]

/-- All comments of the file but the one behind the colon may go. -/
theorem descriptions_without_kotlin_comments_commentedKotlinFile :
    (commentedKotlinFile.without fun c => c.isComment && c.start != 15).descriptions {} =
      commentedKotlinFile.descriptions {} := by
  refine (descriptions_without_kotlin_comments {} commentedKotlinFile rfl _ ?_ ?_).2 ?_
  · rw [Cursor.inside_eq_tail, Cursor.subtree_eq_walk]
    decide +kernel
  · rw [Cursor.inside_eq_tail, Cursor.subtree_eq_walk]
    decide +kernel
  · rw [nodes_eq_walk]
    decide +kernel

/-- The comment behind the colon is what the parameter is said to be of type. -/
theorem exists_kotlin_comment_read_as_type :
    (∀ c ∈ commentedKotlinFile.root.cursor.inside, c.isComment = true →
      c.focus.label.fields = [] ∧ Text.trim (c.text commentedKotlinFile.source) ∉
        ({} : AttributeSettings).recognized ++ Kotlin.decisive) ∧
    (commentedKotlinFile.descriptions {}).map (·.parameters.types) = [["/*b*/"]] ∧
    ((commentedKotlinFile.without Cursor.isComment).descriptions {}).map (·.parameters.types) =
      [["Int"]] := by
  refine ⟨?_, ?_, ?_⟩
  · rw [Cursor.inside_eq_tail, Cursor.subtree_eq_walk]
    decide +kernel
  · rw [descriptions, listAll_eq_filterMap, preorder_root_eq_walk]
    decide +kernel
  · rw [descriptions, listAll_eq_filterMap, preorder_root_eq_walk]
    decide +kernel

end SourceFile

end DeclScribe
