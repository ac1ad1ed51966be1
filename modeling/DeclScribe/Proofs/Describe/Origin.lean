import DeclScribe.Caret
import DeclScribe.Proofs.Caret.Lookup
import DeclScribe.Proofs.Describe.Likeness

/-!
What the place of a file decides. Files of the same code in two places have the same descriptions,
but that those in an external place have the external label in all attribute lists of classes and of
what is in classes.
-/

namespace DeclScribe

open SourceNode Descent Describe Syntax

/-- Whether classes of files in this place count as external, by the end of the name or by the
protocol, for which letters of either case count the same. -/
def FileOrigin.isExternal (settings : AttributeSettings) (o : FileOrigin) : Bool :=
  settings.isCompiledFile o.name || settings.isArchiveProtocol o.protocol

/-- Two files of the same code, be it in the same place or not. -/
structure SourceFile.SameCode (f g : SourceFile) : Prop where
  source_eq : g.source = f.source
  language_eq : g.language = f.language
  tree_eq : g.tree = f.tree

/-- What becomes of attribute lists in an external place. Where there is a class, the external label
stands behind the recognized keywords and in front of the interface label; where there is none, the
list stays as it is. -/
def MarksExternal (settings : AttributeSettings) : AttributeRelation := fun owned as as' =>
  if owned then
    ∃ keywords labels, keywords.Sublist settings.recognized ∧
      (labels = [] ∨ labels = [settings.interfaceLabel]) ∧
      as = keywords ++ labels ∧ as' = keywords ++ settings.externalLabel :: labels
  else as' = as

/-- Two files of which the same places are described, or refused with the same error, with related
attributes: in listings, by offset and node by node. -/
structure SourceFile.DescribedAlike (A : AttributeRelation) (settings : AttributeSettings)
    (f g : SourceFile) : Prop where
  descriptions : List.Forall₂ (Description.Alike A) (f.descriptions settings)
    (g.descriptions settings)
  describeAt : ∀ offset, SameOutcome (Option.Rel (Description.Alike A))
    (f.describeAt settings offset) (g.describeAt settings offset)
  describe : ∀ c offset, SameOutcome (Option.Rel (Description.Alike A))
    (describe settings (f.node c) offset) (describe settings (g.node c) offset)

namespace SourceFile

/-- Files that are described alike with the same attributes have the same descriptions. -/
theorem DescribedAlike.eq {settings : AttributeSettings} {f g : SourceFile}
    (h : f.DescribedAlike (fun _ => Eq) settings g) :
    g.descriptions settings = f.descriptions settings ∧
      (∀ offset, g.describeAt settings offset = f.describeAt settings offset) ∧
      ∀ c offset, Describe.describe settings (g.node c) offset =
        Describe.describe settings (f.node c) offset := by
  refine ⟨Description.Alike.eq_of_forall₂ h.descriptions, ?_, ?_⟩
  · intro offset
    exact (h.describeAt offset).eq fun _ _ => Description.Alike.eq_of_rel
  · intro c offset
    exact (h.describe c offset).eq fun _ _ => Description.Alike.eq_of_rel

theorem isExternal_of_file {settings : AttributeSettings} {f : SourceFile} {o : Option FileNode}
    (ho : ∀ n ∈ o, n.file = f) :
    isExternal settings o = (o.isSome && f.origin.isExternal settings) := by
  cases o with
  | none => rfl
  | some n =>
    obtain rfl : n.file = f := ho n rfl
    exact (Bool.true_and _).symm

/-- The node that stands in the same place in another file. -/
def counterpart (g : SourceFile) (n : FileNode) : FileNode := g.node n.cursor

section SameCode

variable {f g : SourceFile} (h : f.SameCode g) {settings : AttributeSettings}
include h

theorem SameCode.carries : Carries (fun n : FileNode => n.file = f) g.counterpart := by
  obtain ⟨path, source, language, tree, protocol⟩ := g
  obtain ⟨rfl, rfl, rfl⟩ := h
  constructor
  · rintro n rfl a ha
    obtain ⟨c, -, rfl⟩ := List.mem_map.mp ha
    rfl
  · rintro n rfl
    have habove : ancestors n = n.cursor.ancestors.map n.sibling := rfl
    rw [habove, List.map_map]
    rfl
  · rintro n rfl
    exact ⟨rfl, rfl, rfl, rfl, rfl, rfl, rfl, rfl, rfl, rfl⟩

theorem SameCode.keepsParameters {n : FileNode} (hn : n.file = f) :
    KeepsParameters g.counterpart n := by
  obtain ⟨path, source, language, tree, protocol⟩ := g
  obtain ⟨rfl, rfl, rfl⟩ := h
  have hpairs (m : FileNode) (hm : m.file = f) :
      parameterPairs (parameters (counterpart ⟨path, f.source, f.language, f.tree, protocol⟩ m)) =
        parameterPairs (parameters m) := by
    subst hm
    have hparameters (n : FileNode) :
        parameters n = (n.dialect.parameters n.file.source n.cursor).map n.sibling := rfl
    -- names and types are read off the source, at the same places
    rw [parameterPairs, parameterPairs, hparameters, hparameters, List.map_map, List.map_map]
    rfl
  refine ⟨hpairs n hn, ?_⟩
  intro _ m hm
  obtain ⟨c, -, rfl⟩ := List.mem_map.mp (List.mem_of_find?_eq_some hm)
  exact hpairs _ hn

theorem SameCode.counterpart_root : g.counterpart f.root = g.root := by
  rw [root, ← h.tree_eq]
  rfl

theorem SameCode.preorder_counterpart :
    preorder (g.counterpart f.root) = (preorder f.root).map g.counterpart := by
  rw [h.counterpart_root, preorder_root, preorder_root, h.tree_eq, List.map_map]
  rfl

theorem SameCode.declarationAt_eq (offset : Nat) :
    g.declarationAt offset = (f.declarationAt offset).map g.counterpart := by
  obtain ⟨path, source, language, tree, protocol⟩ := g
  obtain ⟨rfl, rfl, rfl⟩ := h
  by_cases hle : offset ≤ f.length
  · rw [declarationAt_eq_find? hle, declarationAt_eq_find? (by exact hle), Option.map_map]
    rfl
  · -- behind the end of the source there is no node in either file
    rw [declarationAt, declarationAt, nodeAt, nodeAt, if_neg hle, if_neg (by exact hle)]
    rfl

/-- Files of the same code are described alike where the attribute lists of their nodes are
related. -/
theorem SameCode.describedAlike {A : AttributeRelation}
    (hA : ∀ c : Cursor, A (labelledClass (f.node c)).isSome (attributes settings (f.node c))
      (attributes settings (g.node c))) : f.DescribedAlike A settings g := by
  have hattributes (n : FileNode) (hn : n.file = f) : A (labelledClass n).isSome
      (attributes settings n) (attributes settings (g.counterpart n)) := by
    obtain ⟨file, c⟩ := n
    obtain rfl : file = f := hn
    exact hA c
  have hnode {n : FileNode} (hn : n.file = f) (offset : Nat) :
      SameOutcome (Option.Rel (Description.Alike A)) (Describe.describe settings n offset)
        (Describe.describe settings (g.counterpart n) offset) :=
    describe_alike h.carries hattributes hn (fun _ => h.keepsParameters hn) offset
  have hfile : ∀ n ∈ f.nodes, n.file = f := by
    intro n hn
    obtain ⟨c, -, rfl⟩ := List.mem_map.mp hn
    rfl
  refine ⟨?_, ?_, ?_⟩
  · have hwalk : ∀ n ∈ preorder f.root, n.file = f := by
      intro n hn
      obtain ⟨c, -, rfl⟩ := exists_cursor_of_mem_preorder hn
      rfl
    have hlist := listAll_alike h.carries h.preorder_counterpart hwalk hattributes
      fun n hn _ => h.keepsParameters (hwalk n hn)
    rw [h.counterpart_root] at hlist
    exact hlist
  · intro offset
    rw [describeAt_eq_elim, describeAt_eq_elim, h.declarationAt_eq]
    cases hn : f.declarationAt offset with
    | none => exact .finished .none
    | some n =>
      have hnf : n.file = f := hfile n (mem_nodes_of_declarationAt hn).1
      have hoffset := (h.carries.answers n hnf).navigationOffset_eq
      rw [Option.map_some, Option.elim_some, Option.elim_some, describeHere, describeHere, hoffset]
      exact hnode hnf _
  · intro c offset
    exact hnode (n := f.node c) rfl offset

/-- Only the external label depends on the place of the file, and it is there for classes and for
what is in classes. -/
theorem SameCode.attributes_eq (c : Cursor) : attributes settings (g.node c) =
    settings.recognized.filter (hasModifier (f.node c)) ++
      ((if (labelledClass (f.node c)).isSome && g.origin.isExternal settings then
          [settings.externalLabel] else []) ++
        if isInterfaceDeclaration (labelledClass (f.node c)) then [settings.interfaceLabel]
        else []) := by
  have hfile : ∀ n ∈ (labelledClass (f.node c)).map g.counterpart, n.file = g := by
    intro n hn
    obtain ⟨m, -, rfl⟩ := Option.map_eq_some_iff.mp hn
    rfl
  -- the class that is labelled is one of the other file, so the place of that file counts
  have hlabels := h.carries.attributes_eq (n := f.node c) rfl settings
  rw [isExternal_of_file hfile, Option.isSome_map] at hlabels
  exact hlabels

/-- In places that both count as external, or both do not, the same attributes are shown. -/
theorem SameCode.attributes_eq_of_isExternal_eq
    (hexternal : g.origin.isExternal settings = f.origin.isExternal settings) (c : Cursor) :
    attributes settings (f.node c) = attributes settings (g.node c) := by
  have hself : f.SameCode f := ⟨rfl, rfl, rfl⟩
  rw [h.attributes_eq, hself.attributes_eq, hexternal]

/-- The label of an external place stands between the recognized keywords and the other label. -/
theorem SameCode.attributes_split (hf : f.origin.isExternal settings = false)
    (hg : g.origin.isExternal settings = true) (c : Cursor) : ∃ keywords labels,
      keywords = settings.recognized.filter (hasModifier (f.node c)) ∧
      labels = (if isInterfaceDeclaration (labelledClass (f.node c)) then
        [settings.interfaceLabel] else []) ∧
      attributes settings (f.node c) = keywords ++ labels ∧
      attributes settings (g.node c) = keywords ++
        if (labelledClass (f.node c)).isSome then settings.externalLabel :: labels else labels := by
  have hself : f.SameCode f := ⟨rfl, rfl, rfl⟩
  refine ⟨_, _, rfl, rfl, ?_, ?_⟩
  · rw [hself.attributes_eq, hf, Bool.and_false]
    rfl
  · rw [h.attributes_eq, hg, Bool.and_true]
    cases labelledClass (f.node c) <;> rfl

theorem SameCode.marksExternal (hf : f.origin.isExternal settings = false)
    (hg : g.origin.isExternal settings = true) (c : Cursor) :
    MarksExternal settings (labelledClass (f.node c)).isSome (attributes settings (f.node c))
      (attributes settings (g.node c)) := by
  obtain ⟨keywords, labels, hkeywords, hlabels, hinside, houtside⟩ := h.attributes_split hf hg c
  rw [hinside, houtside]
  cases labelledClass (f.node c) with
  | none => rfl
  | some d =>
    refine ⟨keywords, labels, hkeywords ▸ List.filter_sublist, ?_, rfl, rfl⟩
    rw [hlabels]
    split
    · exact Or.inr rfl
    · exact Or.inl rfl

end SameCode

end SourceFile

end DeclScribe
