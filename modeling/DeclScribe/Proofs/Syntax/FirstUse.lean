import DeclScribe.Proofs.Syntax.ImplicitParameter
import Mathlib.Logic.Function.Iterate

/-!
Which use of the implicit name stands for the parameter. The search keeps a list of nodes to look
at; it takes off the first node in every round and puts the children in front, unless they belong to
a lambda that is left out. So it ends after at most one round for each node, and what it ends at is
the first use in pre-order that no such lambda comes between.
-/

namespace DeclScribe.Syntax

open Descent

namespace Cursor

variable {top c m : Cursor}

/-- The way up from a node below the top leads through what is between to the top. -/
theorem ancestors_eq_between_append (hc : c ∈ preorder top) (hne : c ≠ top) :
    c.ancestors = between top c ++ top :: top.ancestors := by
  have hway : ∀ c ∈ preorder top,
      c = top ∨ c.ancestors = between top c ++ top :: top.ancestors := by
    refine preorder_induction (Or.inl rfl) fun p hp ih d hd => Or.inr ?_
    have hchild : d ∈ p.children := (List.mem_filter.mp hd).1
    rw [between_of_mem_children hd, ancestors_of_mem_children hchild]
    cases hat : p.isAt top with
    | true =>
      rw [eq_of_isAt hp hat]
      rfl
    | false =>
      rcases ih with rfl | ih
      · rw [isAt_self] at hat
        cases hat
      · rw [ih]
        rfl
  exact (hway c hc).resolve_left hne

theorem mem_between_iff (hc : c ∈ preorder top) (hne : c ≠ top) :
    m ∈ between top c ↔ m ∈ c.ancestors ∧ top ∈ m.ancestors := by
  have hway := ancestors_eq_between_append hc hne
  constructor
  · intro hm
    obtain ⟨lower, upper, hsplit⟩ := List.append_of_mem hm
    rw [hsplit, List.append_assoc, List.cons_append] at hway
    refine ⟨?_, ?_⟩
    · rw [hway]
      exact List.mem_append_right lower List.mem_cons_self
    · rw [← ancestors_eq_of_split hway]
      exact List.mem_append_right upper List.mem_cons_self
  · rintro ⟨hm, htop⟩
    have hlt := length_ancestors_lt htop
    rw [hway] at hm
    -- the top and what is above it do not have the top above them
    rcases List.mem_append.mp hm with hm | hm
    · exact hm
    rcases List.mem_cons.mp hm with rfl | hm
    · exact absurd hlt (Nat.lt_irrefl _)
    · exact absurd hlt (Nat.lt_asymm (length_ancestors_lt hm))

end Cursor

namespace Kotlin

open Cursor

section Rounds

variable (source : String) (lambda : Cursor)

/-- The nodes to look at after a round of the search, unless the round ends it. -/
def round? : List Cursor → Option (List Cursor)
  | [] => none
  | c :: rest =>
    if usesImplicit source c then none
    else if !c.isAt lambda && bindsImplicit c then some rest
    else some (Descent.children c ++ rest)

variable {source lambda} {cs ds : List Cursor}

/-- A round that does not end the search keeps what it will find, and where no round goes on, that
is the first node of the list. -/
theorem findImplicit_eq_of_round? (source : String) (lambda : Cursor) (cs : List Cursor) :
    findImplicit source lambda cs =
      match round? source lambda cs with
      | none => cs.head?
      | some ds => findImplicit source lambda ds := by
  cases cs with
  | nil =>
    rw [findImplicit]
    rfl
  | cons c rest =>
    rw [findImplicit, round?]
    change (if usesImplicit source c then _ else _) = _
    cases usesImplicit source c with
    | true => rfl
    | false => cases !c.isAt lambda && bindsImplicit c <;> rfl

theorem totalWeight_lt_of_round? (h : round? source lambda cs = some ds) :
    totalWeight ds < totalWeight cs := by
  cases cs with
  | nil => cases h
  | cons c rest =>
    rw [round?] at h
    split at h
    · cases h
    · split at h <;> cases h
      · exact totalWeight_tail_lt c _
      · exact totalWeight_children_lt c _

/-- From every list the rounds come to an end, after at most as many as there are nodes from the
list down, and what the search finds is then the first node of the list. -/
theorem exists_rounds_end (source : String) (lambda : Cursor) (cs : List Cursor) :
    ∃ k last, k ≤ totalWeight cs ∧
      (fun ds : Option (List Cursor) => ds.bind (round? source lambda))^[k] (some cs) = some last ∧
      round? source lambda last = none ∧ last.head? = findImplicit source lambda cs := by
  -- on the weight of the list, which every round makes less
  induction hweight : totalWeight cs using Nat.strongRecOn generalizing cs with
  | ind w ih =>
    cases hround : round? source lambda cs with
    | none =>
      refine ⟨0, cs, Nat.zero_le w, rfl, hround, ?_⟩
      rw [findImplicit_eq_of_round?, hround]
    | some ds =>
      have hlt : totalWeight ds < w := hweight ▸ totalWeight_lt_of_round? hround
      obtain ⟨k, last, hk, hrun, hend, hhead⟩ := ih _ hlt ds rfl
      refine ⟨k + 1, last, by omega, ?_, hend, ?_⟩
      · rw [Function.iterate_succ_apply, Option.bind_some, hround, hrun]
      · rw [hhead, findImplicit_eq_of_round? source lambda cs, hround]

end Rounds

section First

variable {source : String} {lambda c : Cursor}

/-- Whether a node can stand for the implicit parameter of a lambda: it is an identifier of that
name, and no lambda strictly between the two lacks a list of parameters of its own. -/
def IsAdmissible (source : String) (lambda c : Cursor) : Prop :=
  (c.kind = "identifier" ∨ c.kind = "simple_identifier") ∧ c.text source = "it" ∧
    ∀ m ∈ c.ancestors, lambda ∈ m.ancestors → m.kind = "lambda_literal" →
      m.hasChildOfKind "lambda_parameters" = true

theorem usesImplicit_iff : usesImplicit source c = true ↔
    (c.kind = "identifier" ∨ c.kind = "simple_identifier") ∧ c.text source = "it" := by
  simp [usesImplicit, isIdentifier, implicitName]

theorem bindsImplicit_eq_false_iff : bindsImplicit c = false ↔
    (c.kind = "lambda_literal" → c.hasChildOfKind "lambda_parameters" = true) := by
  simp [bindsImplicit]

theorem isAdmissible_iff (hkind : lambda.kind = "lambda_literal") (hc : c ∈ preorder lambda) :
    IsAdmissible source lambda c ↔ isOwnUse source lambda c = true := by
  rw [isOwnUse_iff, usesImplicit_iff, and_assoc]
  refine and_congr_right fun hidentifier => and_congr_right fun _ => ?_
  have hne : c ≠ lambda := by
    rintro rfl
    rw [hkind] at hidentifier
    exact absurd hidentifier (by decide)
  simp only [mem_between_iff hc hne, and_imp, bindsImplicit_eq_false_iff]

/-- The search for the implicit parameter of a lambda that lists none ends, after at most one round
for each node below the lambda. It finds the first admissible node in pre-order, and nothing exactly
if there is no such node; the lambda has what is found for its one parameter. -/
theorem implicitParameter_is_first_admissible (source : String) (lambda : Cursor)
    (hkind : lambda.kind = "lambda_literal")
    (hlist : lambda.hasChildOfKind "lambda_parameters" = false) :
    (∃ k last, k ≤ (preorder lambda).length ∧
      (fun cs : Option (List Cursor) => cs.bind (round? source lambda))^[k] (some [lambda]) =
        some last ∧
      round? source lambda last = none ∧ last.head? = implicitParameter source lambda) ∧
      (∀ c, implicitParameter source lambda = some c ↔ ∃ before after,
        preorder lambda = before ++ c :: after ∧ IsAdmissible source lambda c ∧
          ∀ b ∈ before, ¬ IsAdmissible source lambda b) ∧
      (implicitParameter source lambda = none ↔
        ∀ c ∈ preorder lambda, ¬ IsAdmissible source lambda c) ∧
      parameters source lambda = (implicitParameter source lambda).toList := by
  have hfind : implicitParameter source lambda =
      (preorder lambda).find? (isOwnUse source lambda) := implicitParameter_eq_find? hkind
  refine ⟨?_, fun c => ?_, ?_, parameters_eq_toList hkind hlist⟩
  · have hweight : totalWeight [lambda] = (preorder lambda).length := by
      rw [totalWeight, List.flatMap_singleton]
    rw [← hweight]
    exact exists_rounds_end source lambda [lambda]
  · rw [hfind, List.find?_eq_some_iff_append]
    simp only [← exists_and_left]
    refine exists₂_congr fun before after => ?_
    rw [and_left_comm]
    refine and_congr_right fun hsplit => ?_
    have hadmissible : ∀ b ∈ before ++ c :: after,
        (IsAdmissible source lambda b ↔ isOwnUse source lambda b = true) := fun b hb =>
      isAdmissible_iff hkind (hsplit ▸ hb)
    refine and_congr (hadmissible c (by simp)).symm (forall₂_congr fun b hb => ?_)
    rw [hadmissible b (List.mem_append_left _ hb), Bool.not_eq_true', Bool.not_eq_true]
  · rw [hfind, List.find?_eq_none]
    refine forall₂_congr fun c hc => ?_
    rw [isAdmissible_iff hkind hc]

/-- A lambda with three uses of the name below it: one in a lambda that lists no parameters, one in
a lambda that lists another parameter, and one of its own behind these. -/
def threeUsesFile : SourceFile where
  path := "src/A.kt"
  source := "fun f() \x7b a \x7b b \x7b it \x7d; c \x7b x -> it \x7d; it \x7d \x7d"
  language := .kotlin
  tree :=
    .node ⟨"source_file", true, 0, 45, []⟩ [
      .node ⟨"function_declaration", true, 0, 45, []⟩ [
        .leaf ⟨"fun", false, 0, 3, []⟩,
        .leaf ⟨"identifier", true, 4, 5, [.name]⟩,
        .node ⟨"function_value_parameters", true, 5, 7, []⟩ [
          .leaf ⟨"(", false, 5, 6, []⟩,
          .leaf ⟨")", false, 6, 7, []⟩],
        .node ⟨"function_body", true, 8, 45, []⟩ [
          .node ⟨"block", true, 8, 45, []⟩ [
            .leaf ⟨"\x7b", false, 8, 9, []⟩,
            .node ⟨"call_expression", true, 10, 43, []⟩ [
              .leaf ⟨"identifier", true, 10, 11, []⟩,
              .node ⟨"annotated_lambda", true, 12, 43, []⟩ [
                .node ⟨"lambda_literal", true, 12, 43, []⟩ [
                  .leaf ⟨"\x7b", false, 12, 13, []⟩,
                  .node ⟨"call_expression", true, 14, 22, []⟩ [
                    .leaf ⟨"identifier", true, 14, 15, []⟩,
                    .node ⟨"annotated_lambda", true, 16, 22, []⟩ [
                      .node ⟨"lambda_literal", true, 16, 22, []⟩ [
                        .leaf ⟨"\x7b", false, 16, 17, []⟩,
                        .leaf ⟨"identifier", true, 18, 20, []⟩,
                        .leaf ⟨"\x7d", false, 21, 22, []⟩]]],
                  .leaf ⟨";", false, 22, 23, []⟩,
                  .node ⟨"call_expression", true, 24, 37, []⟩ [
                    .leaf ⟨"identifier", true, 24, 25, []⟩,
                    .node ⟨"annotated_lambda", true, 26, 37, []⟩ [
                      .node ⟨"lambda_literal", true, 26, 37, []⟩ [
                        .leaf ⟨"\x7b", false, 26, 27, []⟩,
                        .node ⟨"lambda_parameters", true, 28, 29, []⟩ [
                          .node ⟨"variable_declaration", true, 28, 29, []⟩ [
                            .leaf ⟨"identifier", true, 28, 29, []⟩]],
                        .leaf ⟨"->", false, 30, 32, []⟩,
                        .leaf ⟨"identifier", true, 33, 35, []⟩,
                        .leaf ⟨"\x7d", false, 36, 37, []⟩]]],
                  .leaf ⟨";", false, 37, 38, []⟩,
                  .leaf ⟨"identifier", true, 39, 41, []⟩,
                  .leaf ⟨"\x7d", false, 42, 43, []⟩]]],
            .leaf ⟨"\x7d", false, 44, 45, []⟩]]]]

/-- The first use is passed over, and the one in the lambda with a list comes before the last. -/
theorem implicitParameter_is_first_admissible_threeUsesFile :
    ∃ lambda ∈ preorder (root threeUsesFile.tree), lambda.start = 12 ∧
      lambda.kind = "lambda_literal" ∧ lambda.hasChildOfKind "lambda_parameters" = false ∧
      ∃ c, c.start = 33 ∧ IsAdmissible threeUsesFile.source lambda c ∧
        parameters threeUsesFile.source lambda = [c] := by
  obtain ⟨lambda, hmem, hstart, hkind, hlist, hfind⟩ :
      ∃ lambda ∈ preorder (root threeUsesFile.tree), lambda.start = 12 ∧
        lambda.kind = "lambda_literal" ∧ lambda.hasChildOfKind "lambda_parameters" = false ∧
        ((preorder lambda).find? (isOwnUse threeUsesFile.source lambda)).map start = some 33 := by
    simp only [preorder_eq_named_walk]
    decide +kernel
  rw [← implicitParameter_eq_find? hkind] at hfind
  obtain ⟨c, hc, hcstart⟩ := Option.map_eq_some_iff.mp hfind
  obtain ⟨-, hfirst, -, hparameters⟩ :=
    implicitParameter_is_first_admissible threeUsesFile.source lambda hkind hlist
  obtain ⟨-, -, -, hadmissible, -⟩ := (hfirst c).mp hc
  refine ⟨lambda, hmem, hstart, hkind, hlist, c, hcstart, hadmissible, ?_⟩
  rw [hparameters, hc]
  rfl

end First

end Kotlin

end DeclScribe.Syntax
