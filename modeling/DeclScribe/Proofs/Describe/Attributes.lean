import DeclScribe.Proofs.Describe.Mirror
import DeclScribe.Proofs.Describe.Origin
import DeclScribe.Proofs.Node.OutlineGrowth

/-!
Attributes. A node shows the recognized keywords that it carries, whatever their order and number
among its modifiers, and the labels of its class; a method shows the same labels as its class does.
-/

namespace DeclScribe

open SourceNode Descent Describe

section Spec

variable {ν : Type} [SourceNode ν]

/-- The recognized keywords that a node carries, in the order of the settings. -/
def AttributeSettings.carried (settings : AttributeSettings) (n : ν) : List String :=
  settings.recognized.filter fun keyword => keyword ∈ modifiers n

/-- Whether a class is in a file that is compiled or in an archive. -/
def SourceNode.IsExternal (settings : AttributeSettings) (c : ν) : Prop :=
  ∃ o ∈ origin c, o.isExternal settings = true

instance (settings : AttributeSettings) (c : ν) : Decidable (IsExternal settings c) :=
  inferInstanceAs (Decidable (∃ o ∈ origin c, o.isExternal settings = true))

/-- The labels of a class: the external one if it is external, then the interface label if it is an
interface. Without a class there are none. -/
def AttributeSettings.classLabels (settings : AttributeSettings) : Option ν → List String
  | none => []
  | some c =>
    (if IsExternal settings c then [settings.externalLabel] else []) ++
      if isInterface c then [settings.interfaceLabel] else []

/-- The nodes of a sort and their images have the same records, one by one and in listings. -/
structure Describe.SameRecords {μ : Type} [SourceNode μ] (settings : AttributeSettings)
    (sort : ν → Prop) (image : ν → μ) : Prop where
  describe : ∀ n, sort n → ∀ offset, describe settings (image n) offset = describe settings n offset
  describeClass : ∀ n, sort n → describeClass settings (image n) = describeClass settings n
  describeAll : ∀ n, sort n → describeAll settings (image n) = describeAll settings n
  listAll : ∀ n, sort n → listAll settings (image n) = listAll settings n

end Spec

/-- The front end whose nodes have other modifiers and are the same in all else. -/
@[reducible] def SourceNode.remodified {ν : Type} (front : SourceNode ν)
    (modifiers : ν → List String) : SourceNode ν :=
  { front with modifiers }

namespace Describe

section Labels

variable {ν : Type} [SourceNode ν] (settings : AttributeSettings)

theorem labels_eq_classLabels (c : Option ν) : labels settings c = settings.classLabels c := by
  cases c with
  | none => rfl
  | some c =>
    have hexternal : isExternal settings (some c) = true ↔ IsExternal settings c := by
      rw [isExternal, Option.bind_some, IsExternal]
      cases origin c <;> simp [FileOrigin.isExternal]
    have hinterface : isInterfaceDeclaration (some c) = isInterface c := rfl
    simp only [labels, AttributeSettings.classLabels, hexternal, hinterface]

theorem attributes_eq_carried (n : ν) : attributes settings n =
    settings.carried n ++ settings.classLabels (labelledClass n) := by
  have hcarried : settings.recognized.filter (hasModifier n) = settings.carried n :=
    List.filter_congr fun keyword _ => List.contains_eq_mem keyword (modifiers n)
  rw [attributes, hcarried, labels_eq_classLabels]

theorem attributes_of_method {m : ν} (hm : kind m = .method) : attributes settings m =
    settings.carried m ++ settings.classLabels (containingClass m) := by
  have hclass : labelledClass m = containingClass m := by
    rw [labelledClass, hm]
    rfl
  rw [attributes_eq_carried, hclass]

theorem attributes_of_type {c : ν} (hc : kind c = .type) : attributes settings c =
    settings.carried c ++ settings.classLabels (some c) := by
  have hclass : labelledClass c = some c := if_pos hc
  rw [attributes_eq_carried, hclass]

theorem attributes_describeMethod (m : ν) (offset : Nat) :
    (describeMethod settings m offset).attributes = attributes settings m := by
  unfold describeMethod
  split <;> rfl

/-- The record of the class of a method has the labels that the method has. -/
theorem map_describeClass_containingClass (m : ν) :
    (containingClass m).map (describeClass settings) = (containingClass m).map fun c =>
      ⟨qualifiedName c, settings.carried c ++ settings.classLabels (containingClass m)⟩ := by
  cases hc : containingClass m with
  | none => rfl
  | some c =>
    have hkind : kind c = .type := by simpa using List.find?_some hc
    rw [Option.map_some, Option.map_some, describeClass, attributes_of_type settings hkind]

end Labels

section Same

variable {ν μ : Type} [SourceNode ν] [SourceNode μ] {settings : AttributeSettings}
  {sort : ν → Prop} {image : ν → μ}

/-- Nodes that agree with their images have the same records as those, and the same listings where
the walks down go through images. -/
theorem sameRecords_of_mirrors (h : Mirrors settings true sort image)
    (hbelow : ∀ n, sort n → ∀ m ∈ preorder n, sort m)
    (hpreorder : ∀ n, sort n → preorder (image n) = (preorder n).map image) :
    SameRecords settings sort image := by
  have htyped : Option.map (Description.typed true) = id := by
    funext o
    cases o <;> simp
  have hdescribe : ∀ n, sort n → ∀ offset,
      describe settings (image n) offset = describe settings n offset := by
    intro n hn offset
    have heq := h.describe_eq hn offset
    rw [htyped] at heq
    cases hx : describe settings (image n) offset <;>
      cases hy : describe settings n offset <;>
        simp_all [Except.map]
  have hhere : ∀ n, sort n → describeHere settings (image n) = describeHere settings n := by
    intro n hn
    rw [describeHere, describeHere, (h.agrees n hn).navigationOffset_eq, hdescribe n hn]
  refine ⟨hdescribe, fun n hn => h.describeClass_eq hn, ?_, ?_⟩
  · intro n hn
    rw [describeAll_eq_foldr, describeAll_eq_foldr, hpreorder n hn, List.foldr_map]
    apply List.foldr_ext
    intro m hm later
    rw [prepend, prepend, hhere m (hbelow n hn m hm)]
  · intro n hn
    rw [listAll_eq_filterMap, listAll_eq_filterMap, hpreorder n hn, List.filterMap_map]
    refine List.filterMap_congr fun m hm => ?_
    rw [Function.comp_apply, record?, record?, hhere m (hbelow n hn m hm)]

end Same

/-- The order and the number of modifiers do not count, for the nodes of any front end. -/
theorem sameRecords_remodified {ν : Type} (front : SourceNode ν) (settings : AttributeSettings)
    {keywords : ν → List String} (h : ∀ n k, k ∈ keywords n ↔ k ∈ front.modifiers n) :
    @SameRecords ν front ν (front.remodified keywords) settings (fun _ => True) id := by
  have hmirrors : @Mirrors ν ν front (front.remodified keywords) settings true
      (fun _ => True) id := by
    apply @Mirrors.mk ν ν front (front.remodified keywords)
    · exact fun _ _ _ _ => trivial
    · intro n _
      exact (List.map_id (front.ancestors n)).symm
    · intro n _
      -- the second front end answers as the first but where it is asked for modifiers
      have hmodifier : ∀ k ∈ settings.recognized,
          @hasModifier ν (front.remodified keywords) n k = @hasModifier ν front n k := by
        intro k _
        have hcontains : (keywords n).contains k = (front.modifiers n).contains k := by
          rw [Bool.eq_iff_iff, List.contains_iff_mem, List.contains_iff_mem]
          exact h n k
        exact hcontains
      exact @Agrees.mk ν ν front (front.remodified keywords) _ _ _ _ rfl rfl rfl hmodifier rfl rfl
        (fun _ _ => rfl) (fun _ => rfl) rfl rfl rfl
  exact @sameRecords_of_mirrors ν ν front (front.remodified keywords) settings _ _ hmirrors
    (fun _ _ _ _ => trivial) fun n _ => (List.map_id _).symm

end Describe

namespace Outline

section Modifiers

variable {t : Outline} {i : Nat} {keywords : List String}

theorem outline_of_mem_children {n c : OutlineNode} (hc : c ∈ children n) :
    c.outline = n.outline := by
  obtain ⟨j, -, rfl⟩ := List.mem_map.mp hc
  rfl

theorem parent_setModifiers (j : Nat) :
    (t.apply (.setModifiers i keywords)).entries[j]?.bind OutlineEntry.parent =
      t.entries[j]?.bind OutlineEntry.parent := by
  simp only [apply, modify, List.getElem?_modify]
  cases t.entries[j]? with
  | none => rfl
  | some e =>
    by_cases hij : i = j <;> simp [hij]

theorem placesAbove_setModifiers (j : Nat) :
    OutlineNode.placesAbove (t.apply (.setModifiers i keywords)).entries j =
      OutlineNode.placesAbove t.entries j := by
  induction j using Nat.strongRecOn with
  | ind j ih =>
    rw [OutlineNode.placesAbove, OutlineNode.placesAbove, parent_setModifiers]
    cases t.entries[j]?.bind OutlineEntry.parent with
    | none => rfl
    | some p =>
      by_cases hp : p < j
      · simp only [hp, if_true, ih p hp]
      · simp only [hp, if_false]

variable (h : ∀ k, k ∈ keywords ↔ k ∈ (t.node i).entry.modifiers)
include h

/-- Giving a node other modifiers changes nothing else of any node. -/
theorem exists_entry_setModifiers (j : Nat) :
    ∃ ks : List String, (∀ k, k ∈ ks ↔ k ∈ (t.node j).entry.modifiers) ∧
      ((t.apply (.setModifiers i keywords)).node j).entry =
        { (t.node j).entry with modifiers := ks } := by
  by_cases hj : j < t.size
  · have hentry := entry_modify t i j (fun e => { e with modifiers := keywords }) hj
    by_cases hji : j = i
    · subst hji
      rw [if_pos rfl] at hentry
      exact ⟨keywords, h, hentry⟩
    · rw [if_neg hji] at hentry
      exact ⟨_, fun _ => Iff.rfl, hentry⟩
  · -- there is no such node, before or after
    have hafter : (t.apply (.setModifiers i keywords)).size ≤ j := by
      rw [apply, size_modify]
      exact Nat.le_of_not_lt hj
    have hnone {u : Outline} (hu : u.size ≤ j) : (u.node j).entry = { kind := .other } := by
      have hlength : u.entries.length ≤ j := hu
      simp [node, OutlineNode.entry, List.getD_eq_getElem?_getD, List.getElem?_eq_none hlength]
    refine ⟨_, fun _ => Iff.rfl, ?_⟩
    rw [hnone hafter, hnone (Nat.le_of_not_lt hj)]

/-- A node keeps all answers but the one about its modifiers. -/
theorem field_setModifiers {β : Type} (field : OutlineEntry → β)
    (hfield : ∀ (e : OutlineEntry) (ks : List String), field { e with modifiers := ks } = field e)
    (j : Nat) : field ((t.apply (.setModifiers i keywords)).node j).entry =
      field (t.node j).entry := by
  obtain ⟨ks, -, hks⟩ := exists_entry_setModifiers h j
  rw [hks, hfield]

theorem children_setModifiers (j : Nat) :
    children ((t.apply (.setModifiers i keywords)).node j) =
      (children (t.node j)).map (t.apply (.setModifiers i keywords)).counterpart := by
  have hentry := field_setModifiers h OutlineEntry.children (fun _ _ => rfl) j
  have hbelow (n : OutlineNode) : children n =
      (n.entry.children.filter (n.index < ·)).map n.sibling := rfl
  rw [hbelow, hbelow, hentry, List.map_map]
  rfl

theorem parameters_setModifiers (j : Nat) :
    parameterPairs (parameters ((t.apply (.setModifiers i keywords)).node j)) =
      parameterPairs (parameters (t.node j)) := by
  have hparameters (n : OutlineNode) :
      parameters n = (children n).filter fun c => c.entry.kind = .parameter := rfl
  have hsame {β : Type} (field : OutlineEntry → β)
      (hfield : ∀ (e : OutlineEntry) (ks : List String), field { e with modifiers := ks } = field e)
      (c : OutlineNode) (hc : c ∈ children (t.node j)) :
      field ((t.apply (.setModifiers i keywords)).counterpart c).entry = field c.entry := by
    obtain ⟨outline, index⟩ := c
    obtain rfl : outline = t := outline_of_mem_children hc
    exact field_setModifiers h field hfield index
  have hkinds : ((children (t.node j)).filter fun c =>
        ((t.apply (.setModifiers i keywords)).counterpart c).entry.kind = .parameter) =
      (children (t.node j)).filter fun c => c.entry.kind = .parameter :=
    List.filter_congr fun c hc => by rw [hsame OutlineEntry.kind (fun _ _ => rfl) c hc]
  rw [hparameters, hparameters, children_setModifiers h, List.filter_map, Function.comp_def, hkinds,
    parameterPairs, parameterPairs, List.map_map]
  refine congrArg Parameters.ofPairs (List.map_congr_left fun c hc => ?_)
  have hmem := (List.mem_filter.mp hc).1
  have hname := hsame OutlineEntry.name (fun _ _ => rfl) c hmem
  have htype := hsame OutlineEntry.typeText (fun _ _ => rfl) c hmem
  exact congrArg₂ Prod.mk (congrArg (Option.getD · "") hname) (congrArg (Option.getD · "") htype)

/-- In an outline, too, the order and the number of modifiers do not count. -/
theorem sameRecords_setModifiers (settings : AttributeSettings) :
    SameRecords settings (fun n : OutlineNode => n.outline = t)
      (t.apply (.setModifiers i keywords)).counterpart := by
  have hbelow (n : OutlineNode) : ∀ m ∈ preorder n, m.outline = n.outline :=
    preorder_induction rfl fun _ _ hp _ hc => (outline_of_mem_children hc).trans hp
  apply sameRecords_of_mirrors
  · constructor
    · rintro n rfl a ha
      obtain ⟨p, -, rfl⟩ := List.mem_map.mp ha
      rfl
    · rintro ⟨t, j⟩ rfl
      have habove (n : OutlineNode) : ancestors n =
          (OutlineNode.placesAbove n.outline.entries n.index).map n.sibling := rfl
      rw [habove, habove, List.map_map, counterpart, node, placesAbove_setModifiers]
      rfl
    · rintro ⟨t, j⟩ rfl
      obtain ⟨ks, hsame, hks⟩ := exists_entry_setModifiers h j
      constructor
      · exact field_setModifiers h OutlineEntry.kind (fun _ _ => rfl) j
      · exact field_setModifiers h OutlineEntry.name (fun _ _ => rfl) j
      · exact field_setModifiers h OutlineEntry.qualifiedName (fun _ _ => rfl) j
      · intro k _
        rw [Bool.eq_iff_iff, hasModifier, hasModifier, List.contains_iff_mem, List.contains_iff_mem]
        change k ∈ ((t.apply (.setModifiers i keywords)).node j).entry.modifiers ↔ _
        rw [hks]
        exact hsame k
      · exact field_setModifiers h OutlineEntry.isConstructor (fun _ _ => rfl) j
      · exact field_setModifiers h (fun e => e.kind == .type && e.isInterface) (fun _ _ => rfl) j
      · exact fun _ _ => field_setModifiers h OutlineEntry.typeText (fun _ _ => rfl) j
      · exact fun _ => congrArg _ (parameters_setModifiers h j)
      · exact field_setModifiers h OutlineEntry.text (fun _ _ => rfl) j
      · rfl
      · rfl
  · rintro n rfl
    exact hbelow n
  · rintro n rfl
    apply preorder_map_of_forall
    rintro ⟨u, j⟩ hu
    obtain rfl : u = n.outline := hbelow n _ hu
    exact children_setModifiers h j

end Modifiers

end Outline

/-- A method or constructor has the recognized keywords that it carries as its attributes, in the
order of the settings, and then the labels of its class; the record of its class has the keywords
that the class carries, and the same labels. Without a class there are neither labels nor a record
of one. Modifiers in another order, or repeated, make no difference to any record, be they those of
all nodes of some front end or those that are set for a node of an outline. -/
theorem attributes_by_modifiers_and_class (settings : AttributeSettings) :
    (∀ (ν : Type) [SourceNode ν] (m : ν), kind m = .method → ∀ offset,
      ∃ d, describe settings m offset = .ok (some d) ∧
        d.attributes = settings.carried m ++ settings.classLabels (containingClass m) ∧
        d.owner = (containingClass m).map fun c =>
          ⟨qualifiedName c, settings.carried c ++ settings.classLabels (containingClass m)⟩) ∧
      (∀ (ν : Type) (front : SourceNode ν) (keywords : ν → List String),
        (∀ n k, k ∈ keywords n ↔ k ∈ front.modifiers n) →
          @SameRecords ν front ν (front.remodified keywords) settings (fun _ => True) id) ∧
      ∀ (t : Outline) (i : Nat) (keywords : List String),
        (∀ k, k ∈ keywords ↔ k ∈ (t.node i).entry.modifiers) →
          SameRecords settings (fun n : OutlineNode => n.outline = t)
            (t.apply (.setModifiers i keywords)).counterpart := by
  refine ⟨?_, ?_, ?_⟩
  · intro ν _ m hm offset
    refine ⟨describeMethod settings m offset, ?_, ?_, ?_⟩
    · exact (describe_eq_some_iff settings).mpr (Or.inl ⟨hm, rfl⟩)
    · rw [attributes_describeMethod, attributes_of_method settings hm]
    · rw [owner_describeMethod, map_describeClass_containingClass]
  · intro ν front keywords h
    exact sameRecords_remodified front settings h
  · intro t i keywords h
    exact Outline.sameRecords_setModifiers h settings

/-- A compiled interface with a method that carries three keywords and is itself marked as an
interface. -/
def greeterOutline : Outline :=
  .build (some ⟨"Greeter.class", "file"⟩)
    [.addClass 0 "Greeter" (some "com.acme.Greeter"), .setModifiers 1 ["public"], .markInterface 1,
      .addMethod 1 "greet" none, .setModifiers 2 ["final", "static", "public"], .markInterface 2]

theorem attributes_by_modifiers_and_class_greeterOutline :
    kind (greeterOutline.node 2) = .method ∧
      ∃ d, describe {} (greeterOutline.node 2) 0 = .ok (some d) ∧
        d.attributes = ["public", "static", "final", "external", "interface"] ∧
        d.owner = some ⟨some "com.acme.Greeter", ["public", "external", "interface"]⟩ ∧
        @describe OutlineNode (SourceNode.remodified inferInstance fun n => (modifiers n).reverse)
          {} (greeterOutline.node 2) 0 = .ok (some d) ∧
        describe {} ((greeterOutline.apply
          (.setModifiers 2 ["public", "final", "public", "static"])).node 2) 0 = .ok (some d) := by
  have hkind : kind (greeterOutline.node 2) = .method := by decide +kernel
  obtain ⟨hmethod, hfront, houtline⟩ := attributes_by_modifiers_and_class {}
  obtain ⟨d, hd, hattributes, howner⟩ := hmethod OutlineNode (greeterOutline.node 2) hkind 0
  have hset : ∀ k, k ∈ ["public", "final", "public", "static"] ↔
      k ∈ (greeterOutline.node 2).entry.modifiers := by
    have hmodifiers : (greeterOutline.node 2).entry.modifiers = ["final", "static", "public"] := by
      decide +kernel
    intro k
    rw [hmodifiers]
    simp only [List.mem_cons, List.not_mem_nil]
    tauto
  obtain ⟨hreversed, -, -, -⟩ := hfront OutlineNode inferInstance (fun n => (modifiers n).reverse)
    fun n k => List.mem_reverse
  have hsame := houtline greeterOutline 2 _ hset
  refine ⟨hkind, d, hd, ?_, ?_, ?_, ?_⟩
  · rw [hattributes]
    decide +kernel
  · rw [howner]
    decide +kernel
  · exact (hreversed (greeterOutline.node 2) trivial 0).trans hd
  · exact (hsame.describe (greeterOutline.node 2) rfl 0).trans hd

end DeclScribe
