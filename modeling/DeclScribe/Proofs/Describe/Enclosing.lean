import DeclScribe.Caret
import DeclScribe.Proofs.Describe.Walk
import DeclScribe.Proofs.SourceFile

/-!
What encloses a lambda. Describing a lambda looks up for its method, listing a file looks down; the
description that a lambda's record carries of its method is nevertheless the one that is listed for
that method further ahead, but for the offset.
-/

namespace DeclScribe

open SourceNode Descent Describe

/-- The same description, recorded at another offset. -/
def Description.withOffset (offset : Nat) : Description → Description
  | method owner attributes name returnType parameters _ text =>
    method owner attributes name returnType parameters offset text
  | constructor owner attributes parameters _ => constructor owner attributes parameters offset
  | lambda enclosing returnType parameters _ => lambda enclosing returnType parameters offset

namespace Describe

variable {ν : Type} [SourceNode ν] (settings : AttributeSettings)

/-- But for its offset a method's description depends on nothing but the method. -/
theorem withOffset_describeMethod (m : ν) (offset other : Nat) :
    (describeMethod settings m offset).withOffset other = describeMethod settings m other := by
  unfold describeMethod
  split <;> rfl

theorem isLambda_describeMethod (m : ν) (offset : Nat) :
    (describeMethod settings m offset).isLambda = false := by
  unfold describeMethod
  split <;> rfl

theorem record?_of_method {m : ν} (hm : kind m = .method) :
    record? settings m = some (describeMethod settings m (navigationOffset m)) := by
  apply (record?_eq_some_iff settings).mpr
  exact (describe_eq_some_iff settings).mpr (Or.inl ⟨hm, rfl⟩)

/-- A record that tells of a lambda is that of a lambda which a method encloses. -/
theorem exists_method_of_record? {l : ν} {d : Description} (h : record? settings l = some d)
    (hd : d.isLambda = true) :
    kind l = .lambda ∧ ∃ m, IsNearestMethod m l ∧
      d.enclosing = some (describeMethod settings m d.offset) := by
  have hhere := (record?_eq_some_iff settings).mp h
  rcases (describe_eq_some_iff settings).mp hhere with ⟨-, rfl⟩ | ⟨hl, m, hm, rfl⟩
  · rw [isLambda_describeMethod] at hd
    cases hd
  · exact ⟨hl, m, containingMethod_eq_some_iff.mp hm, rfl⟩

theorem enclosing_of_record? {l m : ν} {d : Description} (h : record? settings l = some d)
    (hl : kind l = .lambda) (hm : IsNearestMethod m l) :
    d.enclosing = some (describeMethod settings m d.offset) := by
  have hhere := (record?_eq_some_iff settings).mp h
  rcases (describe_eq_some_iff settings).mp hhere with ⟨hmethod, -⟩ | ⟨-, m', hm', rfl⟩
  · rw [hl] at hmethod
    cases hmethod
  · -- there is one nearest method
    rw [containingMethod_eq_some_iff.mpr hm] at hm'
    cases hm'
    rfl

theorem isLambda_of_enclosing {n : ν} {d e : Description} (h : record? settings n = some d)
    (he : d.enclosing = some e) : e.isLambda = false := by
  have hlambda : d.isLambda = true := by
    cases d with
    | lambda => rfl
    | method | constructor => cases he
  obtain ⟨-, m, -, hm⟩ := exists_method_of_record? settings h hlambda
  rw [hm] at he
  exact Option.some.inj he ▸ isLambda_describeMethod settings m d.offset

end Describe

theorem SourceNode.IsNearestMethod.mem_ancestors {ν : Type} [SourceNode ν] {m n : ν}
    (h : IsNearestMethod m n) : m ∈ ancestors n := by
  obtain ⟨between, above, hsplit, -, -⟩ := h
  rw [hsplit]
  exact List.mem_append_right between List.mem_cons_self

/-- The method nearest above a lambda of a file has a record, and it stands in front of the
lambda's. -/
theorem exists_record_before {settings : AttributeSettings} {f : SourceFile} {l m : FileNode}
    {j : Nat} {d : Description} (h : (records settings f.root)[j]? = some (l, d))
    (hm : IsNearestMethod m l) :
    ∃ i, i < j ∧ (records settings f.root)[i]? =
      some (m, describeMethod settings m (navigationOffset m)) := by
  obtain ⟨before, after, hsplit, hrecords⟩ := exists_split_of_records settings h
  have hmet : m ∈ before := by
    rcases FileNode.mem_before_of_mem_ancestors hsplit hm.mem_ancestors with hmem | hmem
    · exact hmem
    · -- nothing is above the root
      cases hmem
  have hmethod : kind m = .method := by
    obtain ⟨-, -, -, hkind, -⟩ := hm
    exact hkind
  have htake : (m, describeMethod settings m (navigationOffset m)) ∈
      (records settings f.root).take j := by
    rw [← hrecords]
    apply List.mem_filterMap.mpr
    exact ⟨m, hmet, by rw [record?_of_method settings hmethod]; rfl⟩
  obtain ⟨i, hi, hget⟩ := List.mem_take_iff_getElem.mp htake
  refine ⟨i, by omega, ?_⟩
  rw [← hget]
  exact List.getElem?_eq_getElem _

/-- In the listing of a file, the record of a lambda encloses the record of the method nearest above
it, which stands further ahead, with the offset of the lambda in the place of its own. So what
encloses a lambda is never a lambda, and lambdas of one method differ in what encloses them by its
offset alone. -/
theorem enclosing_eq_listed_record (settings : AttributeSettings) (f : SourceFile) :
    (records settings f.root).map Prod.snd = f.descriptions settings ∧
      (∀ (j : Nat) (d : Description), (f.descriptions settings)[j]? = some d → d.isLambda = true →
        ∃ (i : Nat) (l m : FileNode) (r : Description), i < j ∧
          (records settings f.root)[j]? = some (l, d) ∧
          (records settings f.root)[i]? = some (m, r) ∧
          (f.descriptions settings)[i]? = some r ∧
          kind l = .lambda ∧ IsNearestMethod m l ∧ r.isLambda = false ∧
          d.enclosing = some (r.withOffset d.offset)) ∧
      (∀ d ∈ f.descriptions settings, ∀ e, d.enclosing = some e → e.isLambda = false) ∧
      ∀ (m l₁ l₂ : FileNode) (d₁ d₂ : Description),
        (l₁, d₁) ∈ records settings f.root → (l₂, d₂) ∈ records settings f.root →
        kind l₁ = .lambda → kind l₂ = .lambda → IsNearestMethod m l₁ → IsNearestMethod m l₂ →
          ∃ e₁ e₂, d₁.enclosing = some e₁ ∧ d₂.enclosing = some e₂ ∧
            e₂ = e₁.withOffset e₂.offset := by
  have hlist : (records settings f.root).map Prod.snd = f.descriptions settings :=
    map_snd_records settings f.root
  have hrecord {n : FileNode} {d : Description} (h : (n, d) ∈ records settings f.root) :
      record? settings n = some d :=
    (record?_eq_some_iff settings).mpr ((mem_records settings).mp h).2
  refine ⟨hlist, ?_, ?_, ?_⟩
  · intro j d hd hlambda
    rw [← hlist, List.getElem?_map, Option.map_eq_some_iff] at hd
    obtain ⟨⟨l, _⟩, hj, rfl⟩ := hd
    obtain ⟨hl, m, hm, henclosing⟩ :=
      exists_method_of_record? settings (hrecord (List.mem_of_getElem? hj)) hlambda
    obtain ⟨i, hi, hget⟩ := exists_record_before hj hm
    refine ⟨i, l, m, _, hi, hj, hget, ?_, hl, hm, isLambda_describeMethod settings m _, ?_⟩
    · rw [← hlist, List.getElem?_map, hget]
      rfl
    · rw [henclosing, withOffset_describeMethod]
  · intro d hd e he
    rw [← hlist] at hd
    obtain ⟨⟨n, _⟩, hn, rfl⟩ := List.mem_map.mp hd
    exact isLambda_of_enclosing settings (hrecord hn) he
  · intro m l₁ l₂ d₁ d₂ h₁ h₂ hl₁ hl₂ hm₁ hm₂
    refine ⟨_, _, enclosing_of_record? settings (hrecord h₁) hl₁ hm₁,
      enclosing_of_record? settings (hrecord h₂) hl₂ hm₂, ?_⟩
    rw [withOffset_describeMethod, offset_describeMethod]

/-- A constructor with a lambda whose body is an anonymous class, in a field of which there is another
lambda. -/
def listenerFile : SourceFile where
  path := "A.java"
  source := "class A \x7b A() \x7b f(x -> new B() \x7b int c = g(y -> y); \x7d); \x7d \x7d"
  language := .java
  tree :=
    .node ⟨"program", true, 0, 59, []⟩ [
      .node ⟨"class_declaration", true, 0, 59, []⟩ [
        .leaf ⟨"class", false, 0, 5, []⟩,
        .leaf ⟨"identifier", true, 6, 7, [.name]⟩,
        .node ⟨"class_body", true, 8, 59, [.body]⟩ [
          .leaf ⟨"\x7b", false, 8, 9, []⟩,
          .node ⟨"constructor_declaration", true, 10, 57, []⟩ [
            .leaf ⟨"identifier", true, 10, 11, [.name]⟩,
            .node ⟨"formal_parameters", true, 11, 13, [.parameters]⟩ [
              .leaf ⟨"(", false, 11, 12, []⟩,
              .leaf ⟨")", false, 12, 13, []⟩],
            .node ⟨"constructor_body", true, 14, 57, [.body]⟩ [
              .leaf ⟨"\x7b", false, 14, 15, []⟩,
              .node ⟨"expression_statement", true, 16, 55, []⟩ [
                .node ⟨"method_invocation", true, 16, 54, []⟩ [
                  .leaf ⟨"identifier", true, 16, 17, [.name]⟩,
                  .node ⟨"argument_list", true, 17, 54, []⟩ [
                    .leaf ⟨"(", false, 17, 18, []⟩,
                    .node ⟨"lambda_expression", true, 18, 53, []⟩ [
                      .leaf ⟨"identifier", true, 18, 19, [.parameters]⟩,
                      .leaf ⟨"->", false, 20, 22, []⟩,
                      .node ⟨"object_creation_expression", true, 23, 53, [.body]⟩ [
                        .leaf ⟨"new", false, 23, 26, []⟩,
                        .leaf ⟨"type_identifier", true, 27, 28, [.type]⟩,
                        .node ⟨"argument_list", true, 28, 30, []⟩ [
                          .leaf ⟨"(", false, 28, 29, []⟩,
                          .leaf ⟨")", false, 29, 30, []⟩],
                        .node ⟨"class_body", true, 31, 53, []⟩ [
                          .leaf ⟨"\x7b", false, 31, 32, []⟩,
                          .node ⟨"field_declaration", true, 33, 51, []⟩ [
                            .node ⟨"integral_type", true, 33, 36, [.type]⟩ [
                              .leaf ⟨"int", false, 33, 36, []⟩],
                            .node ⟨"variable_declarator", true, 37, 50, []⟩ [
                              .leaf ⟨"identifier", true, 37, 38, [.name]⟩,
                              .leaf ⟨"=", false, 39, 40, []⟩,
                              .node ⟨"method_invocation", true, 41, 50, []⟩ [
                                .leaf ⟨"identifier", true, 41, 42, [.name]⟩,
                                .node ⟨"argument_list", true, 42, 50, []⟩ [
                                  .leaf ⟨"(", false, 42, 43, []⟩,
                                  .node ⟨"lambda_expression", true, 43, 49, []⟩ [
                                    .leaf ⟨"identifier", true, 43, 44, [.parameters]⟩,
                                    .leaf ⟨"->", false, 45, 47, []⟩,
                                    .leaf ⟨"identifier", true, 48, 49, [.body]⟩],
                                  .leaf ⟨")", false, 49, 50, []⟩]]],
                            .leaf ⟨";", false, 50, 51, []⟩],
                          .leaf ⟨"\x7d", false, 52, 53, []⟩]]],
                    .leaf ⟨")", false, 53, 54, []⟩]],
                .leaf ⟨";", false, 54, 55, []⟩],
              .leaf ⟨"\x7d", false, 56, 57, []⟩]],
          .leaf ⟨"\x7d", false, 58, 59, []⟩]]]

/-- The inner lambda encloses the constructor's record, though the outer lambda and a class lie
between. -/
theorem enclosing_eq_listed_record_listenerFile :
    ∃ r d, (listenerFile.descriptions {})[0]? = some r ∧
      (listenerFile.descriptions {})[2]? = some d ∧ r.isConstructor = true ∧ d.isLambda = true ∧
      d.enclosing = some (r.withOffset d.offset) := by
  have hkinds : (listenerFile.descriptions {}).map (fun d => (d.isConstructor, d.isLambda)) =
      [(true, false), (false, true), (false, true)] := by
    rw [SourceFile.descriptions, listAll_eq_filterMap, SourceFile.preorder_root_eq_walk]
    decide +kernel
  have hat (k : Nat) : ((listenerFile.descriptions {})[k]?).map
      (fun d => (d.isConstructor, d.isLambda)) =
        [(true, false), (false, true), (false, true)][k]? := by
    rw [← List.getElem?_map, hkinds]
  obtain ⟨d, hd, hlambda⟩ := Option.map_eq_some_iff.mp (hat 2)
  have hlisted := (enclosing_eq_listed_record {} listenerFile).2.1 2 d hd (Prod.ext_iff.mp hlambda).2
  obtain ⟨i, -, -, r, hi, -, -, hr, -, -, hmethod, henclosing⟩ := hlisted
  have hfirst : i = 0 := by
    by_contra hne
    have hone : i = 1 := by omega
    subst hone
    have hsecond := hat 1
    rw [hr] at hsecond
    simp [hmethod] at hsecond
  subst hfirst
  have hconstructor := hat 0
  rw [hr] at hconstructor
  refine ⟨r, d, hr, hd, ?_, (Prod.ext_iff.mp hlambda).2, henclosing⟩
  exact (Prod.ext_iff.mp (Option.some.inj hconstructor)).1

end DeclScribe
