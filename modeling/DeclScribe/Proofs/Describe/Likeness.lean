import DeclScribe.Proofs.Describe.Walk
import DeclScribe.Proofs.SourceFile

/-!
Descriptions that differ in their attributes alone. Where a map carries nodes to nodes that give the
same answers but for their file, whatever relates the attribute lists of a node to those of its image
relates their descriptions, and so the listings of all that is below them.
-/

namespace DeclScribe

open SourceNode Descent

section Relation

/-- Relations of attribute lists, one for those of classes and of declarations in classes and one
for those of declarations without a class. -/
abbrev AttributeRelation := Bool → List String → List String → Prop

/-- Two class descriptions of one name, with related attributes. -/
structure ClassDescription.Alike (A : AttributeRelation) (c d : ClassDescription) : Prop where
  qualifiedName_eq : d.qualifiedName = c.qualifiedName
  attributes : A true c.attributes d.attributes

/-- Two descriptions that tell the same but for attributes, and those are related. -/
inductive Description.Alike (A : AttributeRelation) : Description → Description → Prop
  | method {c c' : Option ClassDescription} {as as' : List String}
    (owner : Option.Rel (ClassDescription.Alike A) c c') (attributes : A c.isSome as as')
    (n : String) (t : Option String) (ps : Parameters) (o : Nat) (text : String) :
    Alike A (.method c as n t ps o text) (.method c' as' n t ps o text)
  | constructor {c c' : Option ClassDescription} {as as' : List String}
    (owner : Option.Rel (ClassDescription.Alike A) c c') (attributes : A c.isSome as as')
    (ps : Parameters) (o : Nat) : Alike A (.constructor c as ps o) (.constructor c' as' ps o)
  | lambda {e e' : Description} (enclosing : Alike A e e') (t : Option String) (ps : Parameters)
    (o : Nat) : Alike A (.lambda e t ps o) (.lambda e' t ps o)

def ClassDescription.withoutAttributes (c : ClassDescription) : ClassDescription :=
  { c with attributes := [] }

/-- The description without its attributes, those of its class and those of what it encloses. -/
def Description.withoutAttributes : Description → Description
  | method c _ n t ps o text =>
    .method (c.map ClassDescription.withoutAttributes) [] n t ps o text
  | constructor c _ ps o => .constructor (c.map ClassDescription.withoutAttributes) [] ps o
  | lambda enclosing t ps o => .lambda enclosing.withoutAttributes t ps o

/-- All attribute lists of a description: its own and that of its class. A lambda has those of what
encloses it. -/
def Description.attributeLists : Description → List (List String)
  | method c as .. | constructor c as .. => as :: c.toList.map ClassDescription.attributes
  | lambda enclosing .. => enclosing.attributeLists

/-- Two runs end in the same way: with the same error, or with results that are related. -/
inductive SameOutcome {α : Type} (R : α → α → Prop) :
    Except DescribeError α → Except DescribeError α → Prop
  | refused (e : DescribeError) : SameOutcome R (.error e) (.error e)
  | finished {a b : α} (h : R a b) : SameOutcome R (.ok a) (.ok b)

theorem SameOutcome.imp {α : Type} {R S : α → α → Prop} (himp : ∀ a b, R a b → S a b)
    {x y : Except DescribeError α} (h : SameOutcome R x y) : SameOutcome S x y := by
  cases h with
  | refused e => exact .refused e
  | finished h => exact .finished (himp _ _ h)

theorem SameOutcome.eq {α : Type} {R : α → α → Prop} (heq : ∀ a b, R a b → b = a)
    {x y : Except DescribeError α} (h : SameOutcome R x y) : y = x := by
  cases h with
  | refused e => rfl
  | finished h => rw [heq _ _ h]

theorem SameOutcome.join {α : Type} {R : α → α → Prop} {x y : Except DescribeError (Option α)}
    (h : SameOutcome (Option.Rel R) x y) : Option.Rel R x.toOption.join y.toOption.join := by
  cases h with
  | refused e => exact .none
  | finished h => exact h

variable {A : AttributeRelation}

theorem ClassDescription.withoutAttributes_eq {c c' : Option ClassDescription}
    (h : Option.Rel (ClassDescription.Alike A) c c') :
    c'.map ClassDescription.withoutAttributes = c.map ClassDescription.withoutAttributes := by
  cases h with
  | none => rfl
  | some h =>
    rw [Option.map_some, Option.map_some, withoutAttributes, withoutAttributes, h.qualifiedName_eq]

namespace Description.Alike

variable {d d' : Description}

theorem withoutAttributes_eq (h : Description.Alike A d d') :
    d'.withoutAttributes = d.withoutAttributes := by
  induction h with
  | method owner attributes n t ps o text =>
    rw [withoutAttributes, withoutAttributes, ClassDescription.withoutAttributes_eq owner]
  | constructor owner attributes ps o =>
    rw [withoutAttributes, withoutAttributes, ClassDescription.withoutAttributes_eq owner]
  | lambda enclosing t ps o ih => rw [withoutAttributes, withoutAttributes, ih]

/-- The attribute lists of the one stand in the places of the attribute lists of the other. -/
theorem forall₂_attributeLists {R : List String → List String → Prop}
    (h : Description.Alike (fun _ => R) d d') :
    List.Forall₂ R d.attributeLists d'.attributeLists := by
  have hclass {c c' : Option ClassDescription}
      (howner : Option.Rel (ClassDescription.Alike fun _ => R) c c') :
      List.Forall₂ R (c.toList.map ClassDescription.attributes)
        (c'.toList.map ClassDescription.attributes) := by
    cases howner with
    | none => exact .nil
    | some h => exact .cons h.attributes .nil
  induction h with
  | method owner attributes => exact .cons attributes (hclass owner)
  | constructor owner attributes => exact .cons attributes (hclass owner)
  | lambda enclosing t ps o ih => exact ih

/-- Descriptions with the same attributes are the same. -/
theorem eq_of_eq (h : Description.Alike (fun _ => Eq) d d') : d' = d := by
  have hclass {c c' : Option ClassDescription}
      (howner : Option.Rel (ClassDescription.Alike fun _ => Eq) c c') : c' = c := by
    cases howner with
    | none => rfl
    | @some a b h =>
      obtain ⟨name, list⟩ := a
      obtain ⟨name', list'⟩ := b
      obtain rfl : name' = name := h.qualifiedName_eq
      obtain rfl : list = list' := h.attributes
      rfl
  induction h with
  | method owner attributes => rw [hclass owner, attributes]
  | constructor owner attributes => rw [hclass owner, attributes]
  | lambda enclosing t ps o ih => rw [ih]

theorem eq_of_rel {o o' : Option Description}
    (h : Option.Rel (Description.Alike fun _ => Eq) o o') : o' = o := by
  cases h with
  | none => rfl
  | some h => rw [h.eq_of_eq]

theorem eq_of_forall₂ {ds ds' : List Description}
    (h : List.Forall₂ (Description.Alike fun _ => Eq) ds ds') : ds' = ds := by
  induction h with
  | nil => rfl
  | cons h hs ih => rw [h.eq_of_eq, ih]

end Description.Alike

end Relation

namespace Describe

/-- A node gives the same answers as another one, as far as they do not lead to other nodes and do
not tell of the file. -/
structure Answers {ν μ : Type} [SourceNode ν] [SourceNode μ] (n : ν) (m : μ) : Prop where
  kind_eq : kind m = kind n
  name_eq : name m = name n
  qualifiedName_eq : qualifiedName m = qualifiedName n
  modifiers_eq : modifiers m = modifiers n
  isConstructor_eq : isConstructor m = isConstructor n
  isInterface_eq : isInterface m = isInterface n
  typeText_eq : typeText m = typeText n
  text_eq : text m = text n
  offset_eq : offset m = offset n
  navigationOffset_eq : navigationOffset m = navigationOffset n

/-- A map between nodes that goes on with what is above a node, and under which all nodes of a sort
answer as their images do. -/
structure Carries {ν μ : Type} [SourceNode ν] [SourceNode μ] (sort : ν → Prop) (image : ν → μ) :
    Prop where
  above : ∀ n, sort n → ∀ a ∈ ancestors n, sort a
  ancestors_eq : ∀ n, sort n → ancestors (image n) = (ancestors n).map image
  answers : ∀ n, sort n → Answers n (image n)

namespace Carries

variable {ν μ : Type} [SourceNode ν] [SourceNode μ] {sort : ν → Prop} {image : ν → μ}
  (h : Carries sort image) {n : ν} (hn : sort n)
include h hn

theorem nearest_eq (k : NodeKind) : nearest k (image n) = (nearest k n).map image := by
  apply nearest_image (h.ancestors_eq n hn)
  intro a ha
  exact (h.answers a (h.above n hn a ha)).kind_eq

theorem sort_of_nearest {k : NodeKind} {a : ν} (ha : nearest k n = some a) : sort a :=
  h.above n hn a (List.mem_of_find?_eq_some ha)

theorem enclosed_iff : Enclosed (image n) ↔ Enclosed n := by
  have hkinds : (∃ m ∈ ancestors (image n), kind m = .method) ↔
      ∃ m ∈ ancestors n, kind m = .method := by
    rw [h.ancestors_eq n hn]
    constructor
    · rintro ⟨_, hm, hkind⟩
      obtain ⟨a, ha, rfl⟩ := List.mem_map.mp hm
      exact ⟨a, ha, (h.answers a (h.above n hn a ha)).kind_eq.symm.trans hkind⟩
    · rintro ⟨a, ha, hkind⟩
      exact ⟨image a, List.mem_map_of_mem ha,
        (h.answers a (h.above n hn a ha)).kind_eq.trans hkind⟩
  unfold Enclosed
  rw [(h.answers n hn).kind_eq, hkinds]

theorem labelledClass_eq : labelledClass (image n) = (labelledClass n).map image := by
  unfold labelledClass
  rw [(h.answers n hn).kind_eq]
  split
  · rfl
  · exact h.nearest_eq hn .type

theorem sort_of_labelledClass {c : ν} (hc : labelledClass n = some c) : sort c := by
  unfold labelledClass at hc
  split at hc
  · exact Option.some.inj hc ▸ hn
  · exact h.sort_of_nearest hn hc

theorem isInterfaceDeclaration_eq :
    isInterfaceDeclaration (labelledClass (image n)) =
      isInterfaceDeclaration (labelledClass n) := by
  rw [h.labelledClass_eq hn]
  cases hc : labelledClass n with
  | none => rfl
  | some c => exact (h.answers c (h.sort_of_labelledClass hn hc)).isInterface_eq

/-- The recognized keywords of an image and whether it has the interface label are decided by the
node; whether it has the external label is decided by the file of the image. -/
theorem attributes_eq (settings : AttributeSettings) : attributes settings (image n) =
    settings.recognized.filter (hasModifier n) ++
      ((if isExternal settings ((labelledClass n).map image) then [settings.externalLabel]
        else []) ++
        if isInterfaceDeclaration (labelledClass n) then [settings.interfaceLabel] else []) := by
  have hmodifiers : hasModifier (image n) = hasModifier n := by
    funext keyword
    rw [hasModifier, hasModifier, (h.answers n hn).modifiers_eq]
  rw [attributes, labels, hmodifiers, h.isInterfaceDeclaration_eq hn, h.labelledClass_eq hn]

/-- Where images are in the same file, they have the same attributes. -/
theorem attributes_eq_of_origin_eq (horigin : ∀ m, sort m → origin (image m) = origin m)
    (settings : AttributeSettings) : attributes settings n = attributes settings (image n) := by
  have hexternal : isExternal settings ((labelledClass n).map image) =
      isExternal settings (labelledClass n) := by
    cases hc : labelledClass n with
    | none => rfl
    | some c =>
      have hclass := horigin c (h.sort_of_labelledClass hn hc)
      simp only [isExternal, Option.map_some, Option.bind_some, hclass]
  rw [h.attributes_eq hn, hexternal, attributes, labels]

end Carries

/-- The parameters that the description of a node tells are those of the node, and for a lambda also
those of its method. -/
def KeepsParameters {ν μ : Type} [SourceNode ν] [SourceNode μ] (image : ν → μ) (n : ν) : Prop :=
  parameterPairs (parameters (image n)) = parameterPairs (parameters n) ∧
    (kind n = .lambda → ∀ m, containingMethod n = some m →
      parameterPairs (parameters (image m)) = parameterPairs (parameters m))

section Alike

variable {ν μ : Type} [SourceNode ν] [SourceNode μ] {sort : ν → Prop} {image : ν → μ}
  (h : Carries sort image) {s s' : AttributeSettings} {A : AttributeRelation}
  (hA : ∀ n, sort n → A (labelledClass n).isSome (attributes s n) (attributes s' (image n))) {n : ν}
include h hA

theorem describeClass_alike {c : ν} (hc : sort c) (hkind : kind c = .type) :
    (describeClass s c).Alike A (describeClass s' (image c)) where
  qualifiedName_eq := (h.answers c hc).qualifiedName_eq
  attributes := by
    have hlabelled : labelledClass c = some c := if_pos hkind
    have hattributes := hA c hc
    rw [hlabelled] at hattributes
    exact hattributes

theorem describeMethod_alike {m : ν} (hm : sort m) (hkind : kind m = .method)
    (hparameters : parameterPairs (parameters (image m)) = parameterPairs (parameters m))
    (offset : Nat) :
    (describeMethod s m offset).Alike A (describeMethod s' (image m) offset) := by
  have hanswers := h.answers m hm
  have howner : Option.Rel (ClassDescription.Alike A) ((containingClass m).map (describeClass s))
      ((containingClass (image m)).map (describeClass s')) := by
    unfold containingClass
    rw [h.nearest_eq hm]
    cases hc : nearest .type m with
    | none => exact .none
    | some c =>
      have hclass : kind c = .type := by simpa using List.find?_some hc
      exact .some (describeClass_alike h hA (h.sort_of_nearest hm hc) hclass)
  have hlabelled : labelledClass m = containingClass m := by
    rw [labelledClass, hkind]
    rfl
  have hattributes := hA m hm
  rw [hlabelled, ← Option.isSome_map (f := describeClass s)] at hattributes
  unfold describeMethod
  rw [hanswers.isConstructor_eq, hanswers.name_eq, hanswers.typeText_eq, hanswers.text_eq,
    hparameters]
  cases isConstructor m with
  | true => exact .constructor howner hattributes _ _
  | false => exact .method howner hattributes _ _ _ _ _

/-- A node and its image are described alike, or refused with one error, or not described. -/
theorem describe_alike (hn : sort n) (hkeeps : IsDeclaration n → KeepsParameters image n)
    (offset : Nat) : SameOutcome (Option.Rel (Description.Alike A)) (describe s n offset)
      (describe s' (image n) offset) := by
  have hanswers := h.answers n hn
  by_cases hdecl : IsDeclaration n
  · obtain ⟨hparameters, hmethod⟩ := hkeeps hdecl
    rcases hdecl with hkind | hkind
    · -- a method is described on its own
      have halike := describeMethod_alike h hA hn hkind hparameters offset
      rw [describe, describe, hanswers.kind_eq, hkind]
      exact .finished (.some halike)
    · rw [describe, describe, hanswers.kind_eq, hkind]
      dsimp only
      rw [describeLambda, describeLambda, containingMethod, containingMethod, h.nearest_eq hn]
      -- a lambda has its method in the description, and the method's image in that of its image
      cases hm : nearest .method n with
      | none => exact .refused _
      | some m =>
        have hkindm : kind m = .method := by simpa using List.find?_some hm
        have hsort : sort m := h.sort_of_nearest hn hm
        have halike := describeMethod_alike h hA hsort hkindm (hmethod hkind m hm) offset
        rw [Option.map_some]
        dsimp only
        rw [hanswers.typeText_eq, hparameters]
        exact .finished (.some (.lambda halike _ _ _))
  · have hdecl' : ¬ IsDeclaration (image n) := by
      rw [IsDeclaration, hanswers.kind_eq]
      exact hdecl
    rw [describe_of_not_isDeclaration s hdecl, describe_of_not_isDeclaration s' hdecl']
    exact .finished .none

theorem record?_alike (hn : sort n) (hkeeps : IsDeclaration n → KeepsParameters image n) :
    Option.Rel (Description.Alike A) (record? s n) (record? s' (image n)) := by
  unfold record? describeHere
  rw [(h.answers n hn).navigationOffset_eq]
  exact (describe_alike h hA hn hkeeps (navigationOffset n)).join

theorem forall₂_record?_alike {ns : List ν} (hns : ∀ n ∈ ns, sort n)
    (hkeeps : ∀ n ∈ ns, IsDeclaration n → KeepsParameters image n) :
    List.Forall₂ (Description.Alike A) (ns.filterMap (record? s))
      ((ns.map image).filterMap (record? s')) := by
  have hpairs : List.Forall₂ (fun n m => sort n ∧ (IsDeclaration n → KeepsParameters image n) ∧
      m = image n) ns (ns.map image) := by
    rw [List.forall₂_map_right_iff]
    exact List.forall₂_same.mpr fun n hn => ⟨hns n hn, hkeeps n hn, rfl⟩
  refine List.rel_filterMap ?_ hpairs
  rintro n _ ⟨hn, hkeep, rfl⟩
  exact record?_alike h hA hn hkeep

end Alike

section Listings

variable {ν μ : Type} [SourceNode ν] [SourceNode μ] {sort : ν → Prop} {image : ν → μ}
  (h : Carries sort image) {s s' : AttributeSettings} {A : AttributeRelation} {r : ν}
  (hpreorder : preorder (image r) = (preorder r).map image) (hr : ∀ n ∈ preorder r, sort n)
include h hpreorder hr

/-- The strict listings from a node and from its image fail in the same way. -/
theorem describeAll_eq_error_iff_of_carries {e : DescribeError} :
    describeAll s r = .error e ↔ describeAll s' (image r) = .error e := by
  by_cases hall : ∀ n ∈ preorder r, Enclosed n
  · have hall' : ∀ n ∈ preorder (image r), Enclosed n := by
      rw [hpreorder]
      intro m hm
      obtain ⟨n, hn, rfl⟩ := List.mem_map.mp hm
      exact (h.enclosed_iff (hr n hn)).mpr (hall n hn)
    rw [describeAll_of_enclosed s hall, describeAll_of_enclosed s' hall']
    exact ⟨nofun, nofun⟩
  · -- the first node that is not enclosed decides the error, and its image is the first one too
    obtain ⟨before, n, after, hsplit, hbefore, hn⟩ := exists_first_not_enclosed hall
    have hsort : ∀ m ∈ before ++ n :: after, sort m := hsplit ▸ hr
    have hnsort : sort n := hsort n (List.mem_append_right before List.mem_cons_self)
    have hsplit' : preorder (image r) = before.map image ++ image n :: after.map image := by
      rw [hpreorder, hsplit, List.map_append, List.map_cons]
    have hbefore' : ∀ m ∈ before.map image, Enclosed m := by
      intro m hm
      obtain ⟨a, ha, rfl⟩ := List.mem_map.mp hm
      exact (h.enclosed_iff (hsort a (List.mem_append_left _ ha))).mpr (hbefore a ha)
    have hn' : ¬ Enclosed (image n) := fun henclosed => hn ((h.enclosed_iff hnsort).mp henclosed)
    rw [describeAll_of_not_enclosed s hsplit hbefore hn,
      describeAll_of_not_enclosed s' hsplit' hbefore' hn', (h.answers n hnsort).navigationOffset_eq]

variable (hA : ∀ n, sort n → A (labelledClass n).isSome (attributes s n) (attributes s' (image n)))
  (hkeeps : ∀ n ∈ preorder r, IsDeclaration n → KeepsParameters image n)
include hA hkeeps

theorem listAll_alike :
    List.Forall₂ (Description.Alike A) (listAll s r) (listAll s' (image r)) := by
  rw [listAll_eq_filterMap, listAll_eq_filterMap, hpreorder]
  exact forall₂_record?_alike h hA hr hkeeps

/-- The strict listings tell the same but for attributes, or are refused with one error. -/
theorem describeAll_alike : SameOutcome (List.Forall₂ (Description.Alike A)) (describeAll s r)
    (describeAll s' (image r)) := by
  have hlenient := listAll_alike h hpreorder hr hA hkeeps
  have herror (e : DescribeError) : describeAll s r = .error e ↔
      describeAll s' (image r) = .error e :=
    describeAll_eq_error_iff_of_carries h hpreorder hr
  cases hds : describeAll s r with
  | error e =>
    rw [(herror e).mp hds]
    exact .refused e
  | ok ds =>
    cases hds' : describeAll s' (image r) with
    | error e =>
      cases hds.symm.trans ((herror e).mpr hds')
    | ok ds' =>
      -- a strict listing that succeeds is the lenient one
      rw [((describeAll_eq_ok_iff s).mp hds).2, ((describeAll_eq_ok_iff s').mp hds').2]
      exact .finished hlenient

end Listings

end Describe

/-- A Kotlin interface with a function in which there is a lambda, and a function in no class. -/
def runnerFile : SourceFile where
  path := "I.kt"
  source := "interface I \x7b fun f() \x7b run \x7b \x7d \x7d \x7d fun h() \x7b \x7d"
  language := .kotlin
  tree :=
    .node ⟨"source_file", true, 0, 47, []⟩ [
      .node ⟨"class_declaration", true, 0, 35, []⟩ [
        .leaf ⟨"interface", false, 0, 9, []⟩,
        .leaf ⟨"identifier", true, 10, 11, [.name]⟩,
        .node ⟨"class_body", true, 12, 35, []⟩ [
          .leaf ⟨"\x7b", false, 12, 13, []⟩,
          .node ⟨"function_declaration", true, 14, 33, []⟩ [
            .leaf ⟨"fun", false, 14, 17, []⟩,
            .leaf ⟨"identifier", true, 18, 19, [.name]⟩,
            .node ⟨"function_value_parameters", true, 19, 21, []⟩ [
              .leaf ⟨"(", false, 19, 20, []⟩,
              .leaf ⟨")", false, 20, 21, []⟩],
            .node ⟨"function_body", true, 22, 33, []⟩ [
              .node ⟨"block", true, 22, 33, []⟩ [
                .leaf ⟨"\x7b", false, 22, 23, []⟩,
                .node ⟨"call_expression", true, 24, 31, []⟩ [
                  .leaf ⟨"identifier", true, 24, 27, []⟩,
                  .node ⟨"annotated_lambda", true, 28, 31, []⟩ [
                    .node ⟨"lambda_literal", true, 28, 31, []⟩ [
                      .leaf ⟨"\x7b", false, 28, 29, []⟩,
                      .leaf ⟨"\x7d", false, 30, 31, []⟩]]],
                .leaf ⟨"\x7d", false, 32, 33, []⟩]]],
          .leaf ⟨"\x7d", false, 34, 35, []⟩]],
      .node ⟨"function_declaration", true, 36, 47, []⟩ [
        .leaf ⟨"fun", false, 36, 39, []⟩,
        .leaf ⟨"identifier", true, 40, 41, [.name]⟩,
        .node ⟨"function_value_parameters", true, 41, 43, []⟩ [
          .leaf ⟨"(", false, 41, 42, []⟩,
          .leaf ⟨")", false, 42, 43, []⟩],
        .node ⟨"function_body", true, 44, 47, []⟩ [
          .node ⟨"block", true, 44, 47, []⟩ [
            .leaf ⟨"\x7b", false, 44, 45, []⟩,
            .leaf ⟨"\x7d", false, 46, 47, []⟩]]]]

end DeclScribe
