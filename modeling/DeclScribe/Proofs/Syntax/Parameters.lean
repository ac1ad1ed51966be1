import DeclScribe.Proofs.SourceFile
import DeclScribe.Proofs.Syntax.ImplicitParameter
import Mathlib.Data.List.TakeWhile

/-!
The parameters of methods and lambdas. Where they come from decides in which order they stand and
what is known of their kinds, and their kinds decide whether they have a type text.
-/

namespace DeclScribe

open SourceNode Descent Syntax
open scoped List

namespace Syntax

open Cursor

/-! ### Java -/

namespace Java

/-- Where the parameters of a node come from: from the list of the node or of a declaration around
it, from the names of a lambda, or from its only name. -/
inductive Lists (c : Cursor) : List Cursor → Prop
  | nothing : Lists c []
  | formals {owner list : Cursor} (howner : owner = c ∨ owner ∈ c.ancestors)
    (hlist : list ∈ owner.children) : Lists c (list.childrenOfKinds formalKinds)
  | names {list : Cursor} (hlist : list ∈ c.children) (hkind : list.kind = "inferred_parameters") :
    Lists c (list.childrenOfKinds ["identifier"])
  | name {p : Cursor} (hlambda : c.kind = "lambda_expression")
    (hfound : c.childByField .parameters = some p) (hkind : p.kind = "identifier") : Lists c [p]

theorem lists_formals {c owner : Cursor} (howner : owner = c ∨ owner ∈ c.ancestors) :
    Lists c (formals (owner.childByField .parameters)) := by
  cases hlist : owner.childByField .parameters with
  | none => exact .nothing
  | some list => exact .formals howner (List.mem_of_find?_eq_some hlist)

theorem lists_parameters (c : Cursor) : Lists c (parameters c) := by
  unfold parameters
  split
  case h_1 | h_2 => exact lists_formals (Or.inl rfl)
  case h_3 =>
    -- the record is the parent of the body that the constructor stands in
    cases hrecord : (c.parent.bind Cursor.parent).filter (·.kind == "record_declaration") with
    | none => exact .nothing
    | some record =>
      have hfound := (Option.filter_eq_some_iff.mp hrecord).1
      obtain ⟨body, hbody, habove⟩ := Option.bind_eq_some_iff.mp hfound
      have hancestor : record ∈ c.ancestors := by
        rw [ancestors_of_parent hbody, ancestors_of_parent habove]
        simp
      exact lists_formals (Or.inr hancestor)
  case h_4 hlambda =>
    split
    · exact .nothing
    · next p hfound =>
      have hp : p ∈ c.children := List.mem_of_find?_eq_some hfound
      split_ifs with hname hnames
      · exact .name hlambda hfound (beq_iff_eq.mp hname)
      · exact .names hp (beq_iff_eq.mp hnames)
      · exact .formals (Or.inl rfl) hp
  case h_5 => exact .nothing

/-- The parameters of a node stand in its tree in their own order. -/
theorem Lists.sublist {t : Tree} {c : Cursor} {ps : List Cursor} (h : Lists c ps)
    (hc : c ∈ (root t).subtree) : ps <+ (root t).subtree := by
  have hbelow {d e : Cursor} (hd : d ∈ (root t).subtree) (he : e ∈ d.children) :
      e ∈ (root t).subtree :=
    mem_subtree_trans hd (mem_subtree_of_mem_children he)
  cases h with
  | nothing => exact List.nil_sublist _
  | formals howner hlist =>
    refine childrenOfKinds_sublist (hbelow ?_ hlist) _
    rcases howner with rfl | habove
    · exact hc
    · exact (mem_of_mem_ancestors hc habove).resolve_right List.not_mem_nil
  | names hlist hkind => exact childrenOfKinds_sublist (hbelow hc hlist) _
  | name hlambda hfound hkind =>
    exact List.singleton_sublist.mpr (hbelow hc (List.mem_of_find?_eq_some hfound))

theorem isLambdaIdentifier_of_parent {p c : Cursor} (hkind : p.kind = "identifier")
    (hparent : p.parent = some c) (hc : c.kind = "inferred_parameters" ∨
      c.kind = "lambda_expression" ∧ c.childByField .parameters = some p) :
    isLambdaIdentifier p = true := by
  rcases hc with hnames | ⟨hlambda, hfound⟩
  · simp [isLambdaIdentifier, hkind, hparent, hnames]
  · simp [isLambdaIdentifier, hkind, hparent, hlambda, hfound, isAt_self]

/-- A parameter is a formal one or a mere name, and the names are known as those of lambdas. -/
theorem Lists.kind_of_mem {c p : Cursor} {ps : List Cursor} (h : Lists c ps) (hp : p ∈ ps) :
    p.kind ∈ formalKinds ∨ isLambdaIdentifier p = true := by
  have hchild {list : Cursor} {kinds : List String} (hp : p ∈ list.childrenOfKinds kinds) :
      p ∈ list.children ∧ p.kind ∈ kinds := by
    obtain ⟨hnamed, hkind⟩ := List.mem_filter.mp hp
    exact ⟨(List.mem_filter.mp hnamed).1, List.contains_iff_mem.mp hkind⟩
  cases h with
  | nothing => cases hp
  | formals howner hlist => exact Or.inl (hchild hp).2
  | names hlist hnames =>
    obtain ⟨hmem, hkind⟩ := hchild hp
    exact Or.inr (isLambdaIdentifier_of_parent (List.mem_singleton.mp hkind)
      (parent_of_mem_children hmem) (Or.inl hnames))
  | name hlambda hfound hkind =>
    cases List.mem_singleton.mp hp
    exact Or.inr (isLambdaIdentifier_of_parent hkind
      (parent_of_mem_children (List.mem_of_find?_eq_some hfound)) (Or.inr ⟨hlambda, hfound⟩))

/-- Whether a node, if it is a formal parameter, has a type written in front of its name. -/
structure WritesType (c : Cursor) : Prop where
  formal : c.kind = "formal_parameter" → (c.childByField .type).isSome
  spread : c.kind = "spread_parameter" →
    ∃ d ∈ c.namedChildren, d.kind ≠ "modifiers" ∧ d.kind ≠ "variable_declarator"

theorem isSome_typeText {source : String} {c : Cursor} (hkind : c.kind ∈ formalKinds)
    (h : WritesType c) : (typeText source c).isSome = true := by
  simp only [formalKinds, List.mem_cons, List.not_mem_nil, or_false] at hkind
  rcases hkind with hformal | hspread
  · obtain ⟨type, htype⟩ := Option.isSome_iff_exists.mp (h.formal hformal)
    simp [typeText, hformal, htype]
  · obtain ⟨d, hd, hmodifiers, hdeclarator⟩ := h.spread hspread
    have hfind : (c.namedChildren.find? fun d =>
        d.kind != "modifiers" && d.kind != "variable_declarator").isSome = true := by
      rw [List.find?_isSome]
      exact ⟨d, hd, by simp [hmodifiers, hdeclarator]⟩
    obtain ⟨type, htype⟩ := Option.isSome_iff_exists.mp hfind
    simp [typeText, hspread, htype]

theorem typeText_of_isLambdaIdentifier {source : String} {c : Cursor}
    (h : isLambdaIdentifier c = true) : typeText source c = some unresolvedType := by
  have hkind : c.kind = "identifier" := by
    rw [isLambdaIdentifier, Bool.and_eq_true] at h
    exact beq_iff_eq.mp h.1
  simp [typeText, hkind, h]

/-- A formal parameter has a type text where its type is written, a mere name has none. -/
theorem typeText_of_mem_parameters (source : String) {c p : Cursor} (hp : p ∈ parameters c) :
    (WritesType p → (typeText source p).isSome = true) ∧
      (p.kind ∉ formalKinds → typeText source p = some unresolvedType) := by
  rcases (lists_parameters c).kind_of_mem hp with hkind | hname
  · exact ⟨isSome_typeText hkind, fun hnot => absurd hkind hnot⟩
  · have htype : typeText source p = some unresolvedType := typeText_of_isLambdaIdentifier hname
    exact ⟨fun _ => htype ▸ rfl, fun _ => htype⟩

end Java

/-! ### Kotlin -/

namespace Kotlin

/-- The kinds of parameters behind whose name a type may be written. -/
def typedKinds : List String := ["parameter", "class_parameter", "variable_declaration"]

/-- The kinds of parameters that never have a type of their own. -/
def untypedKinds : List String := ["multi_variable_declaration", "identifier", "simple_identifier"]

/-- Where the parameters of a node come from: from a list of values, each of which may be wrapped,
from a list of other kinds, or from a use of the implicit name below. -/
inductive Lists (c : Cursor) : List Cursor → Prop
  | nothing : Lists c []
  | values {list : Cursor} (hlist : list ∈ c.children) : Lists c (valueParameters list)
  | others {list : Cursor} {kinds : List String} (hlist : list ∈ c.subtree)
    (hkinds : kinds ⊆ typedKinds ++ untypedKinds) : Lists c (list.childrenOfKinds kinds)
  | use {p : Cursor} (hbelow : p ∈ c.subtree) (hname : isIdentifier p = true) : Lists c [p]

theorem lists_parameters (source : String) (c : Cursor) : Lists c (parameters source c) := by
  unfold parameters
  split
  case h_1 | h_2 | h_3 =>
    split
    · exact .nothing
    · next list hlist => exact .values (List.mem_of_find?_eq_some hlist)
  case h_4 =>
    -- without a list of its own the constructor is the list
    refine .others ?_ (by decide)
    cases hlist : c.childOfKind "class_parameters" with
    | none => exact mem_subtree_self c
    | some list => exact mem_subtree_of_mem_children (List.mem_of_find?_eq_some hlist)
  case h_5 hlambda =>
    split
    · next list hlist =>
      exact .others (mem_subtree_of_mem_children (List.mem_of_find?_eq_some hlist)) (by decide)
    · rw [implicitParameter_eq_find? hlambda]
      cases hfound : (preorder c).find? (isOwnUse source c) with
      | none => exact .nothing
      | some p =>
        have huse := List.find?_some hfound
        rw [isOwnUse, usesImplicit, Bool.and_eq_true, Bool.and_eq_true] at huse
        exact .use (mem_subtree_of_mem_preorder (List.mem_of_find?_eq_some hfound)) huse.1.1
  case h_6 => exact .nothing

/-- A value or what is wrapped in it stands where the value stands. -/
theorem valueParameters_sublist (list : Cursor) : valueParameters list <+ list.inside := by
  have hvalue (d : Cursor) : (if d.kind == "parameter" then some d
      else if d.kind == "function_value_parameter" then d.childOfKind "parameter"
      else none).toList <+ d.subtree := by
    split_ifs
    · exact List.singleton_sublist.mpr (mem_subtree_self d)
    · cases hchild : d.childOfKind "parameter" with
      | none => exact List.nil_sublist _
      | some e =>
        exact List.singleton_sublist.mpr
          (mem_subtree_of_mem_children (List.mem_of_find?_eq_some hchild))
    · exact List.nil_sublist _
  rw [valueParameters, List.filterMap_eq_flatMap_toList]
  calc _
    _ <+ list.namedChildren.flatMap subtree :=
      List.Sublist.flatMap_right _ fun d _ => hvalue d
    _ <+ list.inside := List.filter_sublist.flatMap subtree

/-- The parameters of a node stand below it in their own order. -/
theorem Lists.sublist {r c : Cursor} {ps : List Cursor} (h : Lists c ps) (hc : c ∈ r.subtree) :
    ps <+ r.subtree := by
  cases h with
  | nothing => exact List.nil_sublist _
  | @values list hlist =>
    have hmem : list ∈ r.subtree := mem_subtree_trans hc (mem_subtree_of_mem_children hlist)
    exact (valueParameters_sublist list).trans (inside_sublist_subtree hmem)
  | others hlist hkinds => exact childrenOfKinds_sublist (mem_subtree_trans hc hlist) _
  | use hbelow hname => exact List.singleton_sublist.mpr (mem_subtree_trans hc hbelow)

theorem Lists.kind_of_mem {c p : Cursor} {ps : List Cursor} (h : Lists c ps) (hp : p ∈ ps) :
    p.kind ∈ typedKinds ∨ p.kind ∈ untypedKinds := by
  cases h with
  | nothing => cases hp
  | values hlist =>
    obtain ⟨d, -, hd⟩ := List.mem_filterMap.mp hp
    have hkind : p.kind = "parameter" := by
      split_ifs at hd with hplain hwrapped
      · cases hd
        exact beq_iff_eq.mp hplain
      · have hparameter := List.find?_some hd
        exact beq_iff_eq.mp hparameter
    rw [hkind]
    decide
  | others hlist hkinds =>
    have hkind := (List.mem_filter.mp hp).2
    exact List.mem_append.mp (hkinds (List.contains_iff_mem.mp hkind))
  | use hbelow hname =>
    cases List.mem_singleton.mp hp
    have hkind : p.kind ∈ ["identifier", "simple_identifier"] := List.contains_iff_mem.mp hname
    exact Or.inr (List.mem_cons_of_mem _ hkind)

theorem afterColon_eq_none {c : Cursor} (h : c.hasChildOfKind ":" = false) :
    c.afterColon = none := by
  rw [hasChildOfKind, Option.isSome_eq_false_iff, Option.isNone_iff_eq_none, childOfKind,
    List.find?_eq_none] at h
  have hdropped : (c.children.dropWhile fun d => d.kind != ":") = [] := by
    apply List.dropWhile_eq_nil_iff.mpr
    intro d hd
    simpa using h d hd
  rw [afterColon, hdropped, List.find?_nil]

/-- A parameter has the type behind its colon, and the unresolved one where there is none. -/
theorem typeText_of_typed {source : String} {c : Cursor} (hkind : c.kind ∈ typedKinds) :
    typeText source c = some ((writtenType source c).getD unresolvedType) := by
  simp only [typedKinds, List.mem_cons, List.not_mem_nil, or_false] at hkind
  rcases hkind with hkind | hkind | hkind <;> simp [typeText, hkind]

theorem typeText_of_untyped {source : String} {c : Cursor} (hkind : c.kind ∈ untypedKinds) :
    typeText source c = some unresolvedType := by
  simp only [untypedKinds, List.mem_cons, List.not_mem_nil, or_false] at hkind
  rcases hkind with hkind | hkind | hkind <;> simp [typeText, isIdentifier, hkind]

/-- Every parameter has a type text, which is the unresolved type unless one is written. -/
theorem typeText_of_mem_parameters (source : String) {c p : Cursor}
    (hp : p ∈ parameters source c) :
    (typeText source p).isSome = true ∧
      (¬ (p.kind ∈ typedKinds ∧ p.hasChildOfKind ":" = true) →
        typeText source p = some unresolvedType) := by
  rcases (lists_parameters source c).kind_of_mem hp with hkind | hkind
  · rw [typeText_of_typed hkind]
    refine ⟨rfl, fun hnone => ?_⟩
    have hcolon : p.hasChildOfKind ":" = false :=
      Bool.eq_false_iff.mpr fun h => hnone ⟨hkind, h⟩
    rw [writtenType, afterColon_eq_none hcolon]
    rfl
  · rw [typeText_of_untyped hkind]
    exact ⟨rfl, fun _ => rfl⟩

end Kotlin

end Syntax

/-! ### Files -/

/-- Whether every formal parameter of a file has a type. -/
def SourceFile.WritesTypes (f : SourceFile) : Prop := ∀ n ∈ f.nodes, Java.WritesType n.cursor

/-- Whether a parameter has its type written. In Java all formal parameters have, and in Kotlin
those of some kinds that have a colon. -/
def FileNode.HasWrittenType (p : FileNode) : Prop :=
  match p.file.language with
  | .java => p.cursor.kind ∈ Java.formalKinds
  | .kotlin => p.cursor.kind ∈ Kotlin.typedKinds ∧ p.cursor.hasChildOfKind ":" = true

theorem parameters_sublist {f : SourceFile} {n : FileNode} (hn : n ∈ f.nodes) :
    parameters n <+ f.nodes := by
  obtain ⟨c, hc, rfl⟩ := List.mem_map.mp hn
  have hcursors : f.language.dialect.parameters f.source c <+ (Cursor.root f.tree).subtree := by
    cases f.language with
    | java => exact (Java.lists_parameters c).sublist hc
    | kotlin => exact (Kotlin.lists_parameters f.source c).sublist hc
  exact hcursors.map f.node

theorem SourceFile.nodup_nodes (f : SourceFile) : f.nodes.Nodup :=
  (Cursor.nodup_subtree _).map f.node_injective

/-- The parameters of a node come in the order in which a walk through all nodes of its file meets
them, and none of them comes twice. Each has a type text, in Java if the formal parameters of the
file have types, and it is the unresolved type where no type is written. -/
theorem parameters_in_order_with_types {f : SourceFile} {n : FileNode} (hn : n ∈ f.nodes) :
    (parameters n).Sublist f.nodes ∧ (parameters n).Nodup ∧
      (f.language = .kotlin → ∀ p ∈ parameters n, (typeText p).isSome = true) ∧
      (f.language = .java → f.WritesTypes → ∀ p ∈ parameters n, (typeText p).isSome = true) ∧
      ∀ p ∈ parameters n, ¬ p.HasWrittenType → typeText p = some unresolvedType := by
  have horder := parameters_sublist hn
  refine ⟨horder, horder.nodup f.nodup_nodes, ?_⟩
  obtain ⟨c, hc, rfl⟩ := List.mem_map.mp hn
  obtain ⟨path, source, language, tree, protocol⟩ := f
  cases language with
  | java =>
    refine ⟨fun h => Language.noConfusion h, fun _ hwritten p hp => ?_, fun p hp hnone => ?_⟩
    · have htype := hwritten p (horder.subset hp)
      obtain ⟨d, hd, rfl⟩ := List.mem_map.mp hp
      exact (Java.typeText_of_mem_parameters source hd).1 htype
    · obtain ⟨d, hd, rfl⟩ := List.mem_map.mp hp
      exact (Java.typeText_of_mem_parameters source hd).2 hnone
  | kotlin =>
    refine ⟨fun _ p hp => ?_, fun h => Language.noConfusion h, fun p hp hnone => ?_⟩
    · obtain ⟨d, hd, rfl⟩ := List.mem_map.mp hp
      exact (Kotlin.typeText_of_mem_parameters source hd).1
    · obtain ⟨d, hd, rfl⟩ := List.mem_map.mp hp
      exact (Kotlin.typeText_of_mem_parameters source hd).2 hnone

/-- A record whose compact constructor takes its component. -/
def variadicRecordFile : SourceFile where
  path := "src/A.java"
  source := "record R(int... a) \x7b R \x7b \x7d \x7d"
  language := .java
  tree :=
    .node ⟨"program", true, 0, 28, []⟩ [
      .node ⟨"record_declaration", true, 0, 28, []⟩ [
        .leaf ⟨"record", false, 0, 6, []⟩,
        .leaf ⟨"identifier", true, 7, 8, [.name]⟩,
        .node ⟨"formal_parameters", true, 8, 18, [.parameters]⟩ [
          .leaf ⟨"(", false, 8, 9, []⟩,
          .node ⟨"spread_parameter", true, 9, 17, []⟩ [
            .node ⟨"integral_type", true, 9, 12, []⟩ [
              .leaf ⟨"int", false, 9, 12, []⟩],
            .leaf ⟨"...", false, 12, 15, []⟩,
            .node ⟨"variable_declarator", true, 16, 17, []⟩ [
              .leaf ⟨"identifier", true, 16, 17, [.name]⟩]],
          .leaf ⟨")", false, 17, 18, []⟩],
        .node ⟨"class_body", true, 19, 28, [.body]⟩ [
          .leaf ⟨"\x7b", false, 19, 20, []⟩,
          .node ⟨"compact_constructor_declaration", true, 21, 26, []⟩ [
            .leaf ⟨"identifier", true, 21, 22, [.name]⟩,
            .node ⟨"block", true, 23, 26, [.body]⟩ [
              .leaf ⟨"\x7b", false, 23, 24, []⟩,
              .leaf ⟨"\x7d", false, 25, 26, []⟩]],
          .leaf ⟨"\x7d", false, 27, 28, []⟩]]]

instance (c : Cursor) : Decidable (Java.WritesType c) :=
  decidable_of_iff ((c.kind = "formal_parameter" → (c.childByField .type).isSome) ∧
      (c.kind = "spread_parameter" →
        ∃ d ∈ c.namedChildren, d.kind ≠ "modifiers" ∧ d.kind ≠ "variable_declarator"))
    ⟨fun h => ⟨h.1, h.2⟩, fun h => ⟨h.formal, h.spread⟩⟩

/-- The compact constructor has one parameter, which stands in front of it and has its type. -/
theorem parameters_in_order_with_types_variadicRecordFile :
    ∃ n ∈ variadicRecordFile.nodes, n.cursor.kind = "compact_constructor_declaration" ∧
      variadicRecordFile.WritesTypes ∧ (parameters n).map offset = [9] ∧
      (parameters n).map typeText = [some "int..."] ∧
      (parameters n).Sublist variadicRecordFile.nodes ∧
      ∀ p ∈ parameters n, (typeText p).isSome = true := by
  have hconstructor : ∃ n ∈ variadicRecordFile.nodes,
      n.cursor.kind = "compact_constructor_declaration" ∧ (parameters n).map offset = [9] ∧
        (parameters n).map typeText = [some "int..."] := by
    rw [SourceFile.nodes_eq_walk]
    decide +kernel
  have hwritten : variadicRecordFile.WritesTypes := by
    rw [SourceFile.WritesTypes, SourceFile.nodes_eq_walk]
    decide +kernel
  obtain ⟨n, hn, hkind, hoffset, htypes⟩ := hconstructor
  obtain ⟨horder, -, -, hsome, -⟩ := parameters_in_order_with_types hn
  exact ⟨n, hn, hkind, hwritten, hoffset, htypes, horder, hsome rfl hwritten⟩

end DeclScribe
