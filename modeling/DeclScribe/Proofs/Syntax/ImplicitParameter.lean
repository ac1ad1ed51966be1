import DeclScribe.Proofs.Syntax.Nesting
import DeclScribe.SourceFile

/-!
The implicit parameter of a Kotlin lambda. A lambda that lists no parameters has the parameter `it`
if it uses that name. The search for such a use leaves out the lambdas further in that list no
parameters either. By the rules of the language a lambda with an arrow and nothing in front of it
has no parameters at all, and one that lists a parameter `it` keeps the name to itself; of these two
sorts the search knows nothing.
-/

namespace DeclScribe.Syntax

open Descent

namespace Cursor

/-- The nodes strictly between a node and one further up, from below. -/
def between (top c : Cursor) : List Cursor := c.ancestors.takeWhile (!·.isAt top)

theorem between_of_mem_children {top p c : Cursor} (hc : c ∈ Descent.children p) :
    between top c = if p.isAt top then [] else p :: between top p := by
  have hchild : c ∈ p.children := (List.mem_filter.mp hc).1
  rw [between, ancestors_of_mem_children hchild, List.takeWhile_cons]
  cases p.isAt top <;> rfl

theorem isAt_self (c : Cursor) : c.isAt c = true := beq_self_eq_true c.place

theorem eq_of_isAt {top c : Cursor} (hc : c ∈ preorder top) (h : c.isAt top = true) : c = top := by
  rcases eq_or_length_above_lt hc with rfl | hlt
  · rfl
  · rw [not_isAt_of_length hlt] at h
    cases h

/-- No way down leads back to where the top is. -/
theorem not_isAt_of_mem_preorder {top m p : Cursor} (hm : m ∈ preorder top)
    (hdeeper : m.isAt top = false) (hp : p ∈ preorder m) : p.isAt top = false := by
  have hlt : top.above.length < m.above.length := by
    rcases eq_or_length_above_lt hm with rfl | hlt
    · rw [isAt_self] at hdeeper
      cases hdeeper
    · exact hlt
  apply not_isAt_of_length
  rcases eq_or_length_above_lt hp with rfl | hlt'
  · exact hlt
  · omega

/-- What is below a node that is itself further down has that node between itself and the top. -/
theorem mem_between {top m c x : Cursor} (hm : m ∈ preorder top) (hdeeper : m.isAt top = false)
    (hc : c ∈ Descent.children m) (hx : x ∈ preorder c) : m ∈ between top x := by
  refine preorder_induction (motive := fun x => m ∈ between top x) ?_ (fun p hp ih d hd => ?_) x hx
  · rw [between_of_mem_children hc, hdeeper]
    exact List.mem_cons_self
  · have hpm : p ∈ preorder m := mem_preorder_trans (mem_preorder_of_mem_children hc) hp
    rw [between_of_mem_children hd, not_isAt_of_mem_preorder hm hdeeper hpm]
    exact List.mem_cons_of_mem p ih

end Cursor

namespace Kotlin

open Cursor

/-- Whether a node uses the implicit name. -/
def usesImplicit (source : String) (c : Cursor) : Bool :=
  isIdentifier c && c.text source == implicitName

/-- Whether a node uses the implicit name and no lambda in between lists no parameters. -/
def isOwnUse (source : String) (lambda c : Cursor) : Bool :=
  usesImplicit source c && !(between lambda c).any bindsImplicit

section Search

variable {source : String} {lambda : Cursor}

/-- Where the search goes: below the lambda, and not below one that is left out. -/
def IsSearched (lambda c : Cursor) : Prop :=
  c ∈ preorder lambda ∧ (c.isAt lambda = true ∨ (between lambda c).any bindsImplicit = false)

theorem isSearched_of_mem_children {c d : Cursor} (hc : IsSearched lambda c)
    (hgo : ¬ (!c.isAt lambda && bindsImplicit c) = true) (hd : d ∈ Descent.children c) :
    IsSearched lambda d := by
  obtain ⟨hmem, hopen⟩ := hc
  refine ⟨mem_preorder_trans hmem (mem_preorder_of_mem_children hd), Or.inr ?_⟩
  rw [between_of_mem_children hd]
  cases hat : c.isAt lambda with
  | true => rfl
  | false =>
    rw [hat, Bool.not_false, Bool.true_and, Bool.not_eq_true] at hgo
    have hbetween : (between lambda c).any bindsImplicit = false := by simpa [hat] using hopen
    simp [hgo, hbetween]

theorem isOwnUse_of_isSearched (hkind : lambda.kind = "lambda_literal") {c : Cursor}
    (hc : IsSearched lambda c) : isOwnUse source lambda c = usesImplicit source c := by
  obtain ⟨hmem, hat | hopen⟩ := hc
  · -- the lambda itself is no identifier
    have huse : usesImplicit source c = false := by
      rw [eq_of_isAt hmem hat, usesImplicit, isIdentifier, hkind]
      rfl
    rw [isOwnUse, huse, Bool.false_and]
  · rw [isOwnUse, hopen, Bool.not_false, Bool.and_true]

/-- Below a lambda that is left out nothing belongs to the lambda above it. -/
theorem isOwnUse_eq_false {m c d : Cursor} (hm : m ∈ preorder lambda)
    (hout : (!m.isAt lambda && bindsImplicit m) = true) (hd : d ∈ Descent.children m)
    (hc : c ∈ preorder d) : isOwnUse source lambda c = false := by
  rw [Bool.and_eq_true, Bool.not_eq_true'] at hout
  have hany : (between lambda c).any bindsImplicit = true :=
    List.any_eq_true.mpr ⟨m, mem_between hm hout.1 hd hc, hout.2⟩
  rw [isOwnUse, hany, Bool.not_true, Bool.and_false]

/-- The search from some nodes down ends at the first use below them that belongs to the lambda. -/
theorem findImplicit_eq_find? (hkind : lambda.kind = "lambda_literal") {cs : List Cursor}
    (hcs : ∀ c ∈ cs, IsSearched lambda c) :
    findImplicit source lambda cs = (cs.flatMap preorder).find? (isOwnUse source lambda) := by
  -- along the search; at every step all nodes on its list are where it goes
  induction cs using findImplicit.induct source lambda with
  | case1 => rw [findImplicit, List.flatMap_nil, List.find?_nil]
  | case2 c rest hfound =>
    obtain ⟨hc, -⟩ := List.forall_mem_cons.mp hcs
    have hown : isOwnUse source lambda c = true := (isOwnUse_of_isSearched hkind hc).trans hfound
    rw [findImplicit, if_pos hfound, List.flatMap_cons, preorder_eq, List.cons_append,
      List.find?_cons_of_pos hown]
  | case3 c rest hother hout ih =>
    obtain ⟨hc, hrest⟩ := List.forall_mem_cons.mp hcs
    have hnone : (preorder c).find? (isOwnUse source lambda) = none := by
      apply List.find?_eq_none.mpr
      intro x hx
      rcases mem_preorder.mp hx with rfl | ⟨d, hd, hxd⟩
      · rw [isOwnUse_of_isSearched hkind hc]
        exact hother
      · -- nothing is lost by leaving out what is below
        rw [isOwnUse_eq_false hc.1 hout hd hxd]
        decide
    rw [findImplicit, if_neg hother, if_pos hout, ih hrest, List.flatMap_cons, List.find?_append,
      hnone, Option.none_or]
  | case4 c rest hother hgo ih =>
    obtain ⟨hc, hrest⟩ := List.forall_mem_cons.mp hcs
    have hbelow : ∀ d ∈ Descent.children c ++ rest, IsSearched lambda d := by
      intro d hd
      rcases List.mem_append.mp hd with hd | hd
      · exact isSearched_of_mem_children hc hgo hd
      · exact hrest d hd
    have hnot : ¬ isOwnUse source lambda c = true := by
      rw [isOwnUse_of_isSearched hkind hc]
      exact hother
    rw [findImplicit, if_neg hother, if_neg hgo, ih hbelow, List.flatMap_cons, preorder_eq c,
      List.cons_append, List.find?_cons_of_neg hnot, List.flatMap_append]

theorem implicitParameter_eq_find? (hkind : lambda.kind = "lambda_literal") :
    implicitParameter source lambda = (preorder lambda).find? (isOwnUse source lambda) := by
  have hself : ∀ c ∈ [lambda], IsSearched lambda c := by
    intro c hc
    rw [List.mem_singleton.mp hc]
    exact ⟨mem_preorder_self lambda, Or.inl (isAt_self lambda)⟩
  rw [implicitParameter, findImplicit_eq_find? hkind hself, List.flatMap_singleton]

theorem parameters_eq_toList (hkind : lambda.kind = "lambda_literal")
    (hlist : lambda.hasChildOfKind "lambda_parameters" = false) :
    parameters source lambda = (implicitParameter source lambda).toList := by
  rw [hasChildOfKind, Option.isSome_eq_false_iff, Option.isNone_iff_eq_none] at hlist
  simp only [parameters, hkind, hlist]

theorem parameters_ne_nil_iff (hkind : lambda.kind = "lambda_literal")
    (hlist : lambda.hasChildOfKind "lambda_parameters" = false) :
    parameters source lambda ≠ [] ↔
      ∃ c ∈ preorder lambda, isOwnUse source lambda c = true := by
  rw [parameters_eq_toList hkind hlist, implicitParameter_eq_find? hkind, ne_eq,
    Option.toList_eq_nil_iff, ← ne_eq, Option.ne_none_iff_isSome, List.find?_isSome]

end Search

section Scope

/-- Whether a lambda has an arrow. -/
def hasArrow (c : Cursor) : Bool := c.hasChildOfKind "->"

/-- Whether a lambda lists a parameter that has the implicit name. -/
def listsImplicit (source : String) (c : Cursor) : Bool :=
  c.kind == "lambda_literal" && (c.childOfKind "lambda_parameters").any fun list =>
    (list.childrenOfKinds lambdaParameterKinds).any fun p => name source p == some implicitName

/-- Whether the implicit name has a meaning of its own in a lambda: the lambda has neither a list of
parameters nor an arrow, or it lists a parameter of that name. -/
def scopesImplicit (source : String) (c : Cursor) : Bool :=
  (bindsImplicit c && !hasArrow c) || listsImplicit source c

/-- A use of the implicit name is free in a lambda if the name has no other meaning in between. -/
def IsFree (source : String) (lambda c : Cursor) : Prop :=
  usesImplicit source c = true ∧ ∀ m ∈ between lambda c, scopesImplicit source m = false

instance (source : String) (lambda : Cursor) : DecidablePred (IsFree source lambda) :=
  fun _ => inferInstanceAs (Decidable (_ ∧ _))

variable {source : String} {lambda c : Cursor}

theorem isOwnUse_iff : isOwnUse source lambda c = true ↔
    usesImplicit source c = true ∧ ∀ m ∈ between lambda c, bindsImplicit m = false := by
  simp [isOwnUse]

theorem IsFree.isOwnUse (h : IsFree source lambda c)
    (harrow : ∀ m ∈ between lambda c, bindsImplicit m = true → hasArrow m = false) :
    isOwnUse source lambda c = true := by
  refine isOwnUse_iff.mpr ⟨h.1, fun m hm => ?_⟩
  have hscope := h.2 m hm
  cases hbinds : bindsImplicit m with
  | false => rfl
  | true => simp [scopesImplicit, hbinds, harrow m hm hbinds] at hscope

theorem isFree_of_isOwnUse (h : isOwnUse source lambda c = true)
    (hlists : ∀ m ∈ between lambda c, listsImplicit source m = false) :
    IsFree source lambda c := by
  obtain ⟨huse, hbinds⟩ := isOwnUse_iff.mp h
  refine ⟨huse, fun m hm => ?_⟩
  rw [scopesImplicit, hbinds m hm, hlists m hm]
  rfl

/-- A lambda that lists no parameters has the implicit one exactly if it uses the name outside the
lambdas further in that list no parameters. So if it has no arrow and no lambda between it and such
a use has an arrow alone or lists a parameter of that name, it has the parameter exactly if the name
is free in it. -/
theorem has_implicit_parameter_iff (source : String) (lambda : Cursor)
    (hkind : lambda.kind = "lambda_literal")
    (hlist : lambda.hasChildOfKind "lambda_parameters" = false) :
    (parameters source lambda ≠ [] ↔ ∃ c ∈ preorder lambda, usesImplicit source c = true ∧
        ∀ m ∈ between lambda c, bindsImplicit m = false) ∧
      (∀ c ∈ preorder lambda, IsFree source lambda c →
        (∀ m ∈ between lambda c, bindsImplicit m = true → hasArrow m = false) →
        parameters source lambda ≠ []) ∧
      (hasArrow lambda = false →
        (∀ c ∈ preorder lambda, usesImplicit source c = true → ∀ m ∈ between lambda c,
          (bindsImplicit m = true → hasArrow m = false) ∧ listsImplicit source m = false) →
        (parameters source lambda ≠ [] ↔
          hasArrow lambda = false ∧ ∃ c ∈ preorder lambda, IsFree source lambda c)) := by
  have hown : parameters source lambda ≠ [] ↔ _ := parameters_ne_nil_iff hkind hlist
  have hfree : ∀ c ∈ preorder lambda, IsFree source lambda c →
      (∀ m ∈ between lambda c, bindsImplicit m = true → hasArrow m = false) →
      parameters source lambda ≠ [] := fun c hc h harrow => hown.mpr ⟨c, hc, h.isOwnUse harrow⟩
  refine ⟨?_, hfree, fun harrow hplain => ⟨fun hparameters => ?_, ?_⟩⟩
  · simp only [hown, isOwnUse_iff]
  · obtain ⟨c, hc, h⟩ := hown.mp hparameters
    have huse := (isOwnUse_iff.mp h).1
    exact ⟨harrow, c, hc, isFree_of_isOwnUse h fun m hm => (hplain c hc huse m hm).2⟩
  · rintro ⟨-, c, hc, h⟩
    exact hfree c hc h fun m hm => (hplain c hc h.1 m hm).1

/-- Two lambdas that list no parameters, one in the other, and each uses the name. -/
def nestedUseFile : SourceFile where
  path := "src/A.kt"
  source := "fun f() \x7b a \x7b it.b \x7b it \x7d \x7d \x7d"
  language := .kotlin
  tree :=
    .node ⟨"source_file", true, 0, 29, []⟩ [
      .node ⟨"function_declaration", true, 0, 29, []⟩ [
        .leaf ⟨"fun", false, 0, 3, []⟩,
        .leaf ⟨"identifier", true, 4, 5, [.name]⟩,
        .node ⟨"function_value_parameters", true, 5, 7, []⟩ [
          .leaf ⟨"(", false, 5, 6, []⟩,
          .leaf ⟨")", false, 6, 7, []⟩],
        .node ⟨"function_body", true, 8, 29, []⟩ [
          .node ⟨"block", true, 8, 29, []⟩ [
            .leaf ⟨"\x7b", false, 8, 9, []⟩,
            .node ⟨"call_expression", true, 10, 27, []⟩ [
              .leaf ⟨"identifier", true, 10, 11, []⟩,
              .node ⟨"annotated_lambda", true, 12, 27, []⟩ [
                .node ⟨"lambda_literal", true, 12, 27, []⟩ [
                  .leaf ⟨"\x7b", false, 12, 13, []⟩,
                  .node ⟨"call_expression", true, 14, 25, []⟩ [
                    .node ⟨"navigation_expression", true, 14, 18, []⟩ [
                      .leaf ⟨"identifier", true, 14, 16, []⟩,
                      .leaf ⟨".", false, 16, 17, []⟩,
                      .leaf ⟨"identifier", true, 17, 18, []⟩],
                    .node ⟨"annotated_lambda", true, 19, 25, []⟩ [
                      .node ⟨"lambda_literal", true, 19, 25, []⟩ [
                        .leaf ⟨"\x7b", false, 19, 20, []⟩,
                        .leaf ⟨"identifier", true, 21, 23, []⟩,
                        .leaf ⟨"\x7d", false, 24, 25, []⟩]]],
                  .leaf ⟨"\x7d", false, 26, 27, []⟩]]],
            .leaf ⟨"\x7d", false, 28, 29, []⟩]]]]

/-- The outer lambda has its parameter for the first use; the inner lambda has one of its own. -/
theorem has_implicit_parameter_nestedUseFile :
    ∃ lambda ∈ preorder (root nestedUseFile.tree), lambda.start = 12 ∧
      lambda.kind = "lambda_literal" ∧ lambda.hasChildOfKind "lambda_parameters" = false ∧
      parameters nestedUseFile.source lambda ≠ [] ∧
      (∃ c ∈ preorder lambda, IsFree nestedUseFile.source lambda c) ∧
      ∃ c ∈ preorder lambda, usesImplicit nestedUseFile.source c = true ∧
        ¬ IsFree nestedUseFile.source lambda c := by
  obtain ⟨lambda, hmem, hstart, hkind, hlist, harrow, hplain, hfree, hother⟩ :
      ∃ lambda ∈ preorder (root nestedUseFile.tree), lambda.start = 12 ∧
        lambda.kind = "lambda_literal" ∧ lambda.hasChildOfKind "lambda_parameters" = false ∧
        hasArrow lambda = false ∧
        (∀ c ∈ preorder lambda, usesImplicit nestedUseFile.source c = true →
          ∀ m ∈ between lambda c, (bindsImplicit m = true → hasArrow m = false) ∧
            listsImplicit nestedUseFile.source m = false) ∧
        (∃ c ∈ preorder lambda, IsFree nestedUseFile.source lambda c) ∧
        ∃ c ∈ preorder lambda, usesImplicit nestedUseFile.source c = true ∧
          ¬ IsFree nestedUseFile.source lambda c := by
    simp only [preorder_eq_named_walk]
    decide +kernel
  have hiff := has_implicit_parameter_iff nestedUseFile.source lambda hkind hlist
  have hparameters := (hiff.2.2 harrow hplain).mpr ⟨harrow, hfree⟩
  exact ⟨lambda, hmem, hstart, hkind, hlist, hparameters, hfree, hother⟩

/-- A lambda around one that lists a parameter `it`. -/
def listedUseFile : SourceFile where
  path := "src/A.kt"
  source := "fun f() \x7b a \x7b b \x7b it -> it \x7d \x7d \x7d"
  language := .kotlin
  tree :=
    .node ⟨"source_file", true, 0, 32, []⟩ [
      .node ⟨"function_declaration", true, 0, 32, []⟩ [
        .leaf ⟨"fun", false, 0, 3, []⟩,
        .leaf ⟨"identifier", true, 4, 5, [.name]⟩,
        .node ⟨"function_value_parameters", true, 5, 7, []⟩ [
          .leaf ⟨"(", false, 5, 6, []⟩,
          .leaf ⟨")", false, 6, 7, []⟩],
        .node ⟨"function_body", true, 8, 32, []⟩ [
          .node ⟨"block", true, 8, 32, []⟩ [
            .leaf ⟨"\x7b", false, 8, 9, []⟩,
            .node ⟨"call_expression", true, 10, 30, []⟩ [
              .leaf ⟨"identifier", true, 10, 11, []⟩,
              .node ⟨"annotated_lambda", true, 12, 30, []⟩ [
                .node ⟨"lambda_literal", true, 12, 30, []⟩ [
                  .leaf ⟨"\x7b", false, 12, 13, []⟩,
                  .node ⟨"call_expression", true, 14, 28, []⟩ [
                    .leaf ⟨"identifier", true, 14, 15, []⟩,
                    .node ⟨"annotated_lambda", true, 16, 28, []⟩ [
                      .node ⟨"lambda_literal", true, 16, 28, []⟩ [
                        .leaf ⟨"\x7b", false, 16, 17, []⟩,
                        .node ⟨"lambda_parameters", true, 18, 20, []⟩ [
                          .node ⟨"variable_declaration", true, 18, 20, []⟩ [
                            .leaf ⟨"identifier", true, 18, 20, []⟩]],
                        .leaf ⟨"->", false, 21, 23, []⟩,
                        .leaf ⟨"identifier", true, 24, 26, []⟩,
                        .leaf ⟨"\x7d", false, 27, 28, []⟩]]],
                  .leaf ⟨"\x7d", false, 29, 30, []⟩]]],
            .leaf ⟨"\x7d", false, 31, 32, []⟩]]]]

/-- The outer lambda has no arrow and every `it` below it is the parameter that the inner lambda
lists, but it has an implicit parameter. -/
theorem exists_implicit_parameter_without_free_use :
    ∃ lambda ∈ preorder (root listedUseFile.tree), lambda.kind = "lambda_literal" ∧
      lambda.hasChildOfKind "lambda_parameters" = false ∧ hasArrow lambda = false ∧
      parameters listedUseFile.source lambda ≠ [] ∧
      ∀ c ∈ preorder lambda, ¬ IsFree listedUseFile.source lambda c := by
  obtain ⟨lambda, hmem, hkind, hlist, harrow, hown, hbound⟩ :
      ∃ lambda ∈ preorder (root listedUseFile.tree), lambda.kind = "lambda_literal" ∧
        lambda.hasChildOfKind "lambda_parameters" = false ∧ hasArrow lambda = false ∧
        (∃ c ∈ preorder lambda, isOwnUse listedUseFile.source lambda c = true) ∧
        ∀ c ∈ preorder lambda, ¬ IsFree listedUseFile.source lambda c := by
    simp only [preorder_eq_named_walk]
    decide +kernel
  exact ⟨lambda, hmem, hkind, hlist, harrow, (parameters_ne_nil_iff hkind hlist).mpr hown, hbound⟩

end Scope

end Kotlin

end DeclScribe.Syntax
