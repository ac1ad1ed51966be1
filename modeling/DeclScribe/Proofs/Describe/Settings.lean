import DeclScribe.Caret
import DeclScribe.Proofs.Describe.Likeness

/-!
What the settings decide. Under all settings the same nodes are described and the same lambdas are
refused, and the descriptions tell the same but for their attributes. Settings that recognize more
keywords only add attributes.
-/

namespace DeclScribe

open SourceNode Descent Describe

/-- The second settings recognize the keywords of the first in the same order, and maybe others, and
are the same in all else. -/
def AttributeSettings.Widens (s s' : AttributeSettings) : Prop :=
  s.recognized.Sublist s'.recognized ∧ s' = { s with recognized := s'.recognized }

/-- Two listings that differ in attributes alone: they tell the same at each place but for the
attributes, and attributes are only added if the settings are widened. -/
structure Description.DiffersInAttributes (s s' : AttributeSettings) (ds ds' : List Description) :
    Prop where
  rest_eq : ds'.map Description.withoutAttributes = ds.map Description.withoutAttributes
  added : s.Widens s' → List.Forall₂
    (fun d d' => List.Forall₂ List.Sublist d.attributeLists d'.attributeLists) ds ds'

namespace Describe

section Settings

variable {ν : Type} [SourceNode ν] {s s' : AttributeSettings}

theorem carries_id : Carries (fun _ : ν => True) id where
  above := fun _ _ _ _ => trivial
  ancestors_eq := fun n _ => (List.map_id (ancestors n)).symm
  answers := fun _ _ => ⟨rfl, rfl, rfl, rfl, rfl, rfl, rfl, rfl, rfl, rfl⟩

theorem keepsParameters_id (n : ν) : KeepsParameters id n := ⟨rfl, fun _ _ _ => rfl⟩

theorem preorder_id (r : ν) : preorder (id r) = (preorder r).map id :=
  (List.map_id (preorder r)).symm

/-- A node has all attributes that it has under narrower settings, in the same order. -/
theorem attributes_sublist (h : s.Widens s') (n : ν) :
    (attributes s n).Sublist (attributes s' n) := by
  obtain ⟨hrecognized, hrest⟩ := h
  have hlabels : labels s' (labelledClass n) = labels s (labelledClass n) := by
    rw [hrest]
    rfl
  have hkeywords : (s.recognized.filter (hasModifier n)).Sublist
      (s'.recognized.filter (hasModifier n)) := hrecognized.filter _
  unfold attributes
  rw [hlabels]
  exact hkeywords.append_right _

/-- Attributes of one place, of which some are added at most if the settings are widened. -/
def Added (s s' : AttributeSettings) : AttributeRelation := fun _ as as' =>
  s.Widens s' → as.Sublist as'

theorem added_attributes (s s' : AttributeSettings) (n : ν) :
    Added s s' (labelledClass n).isSome (attributes s n) (attributes s' (id n)) := fun hwidens =>
  attributes_sublist hwidens n

theorem differsInAttributes_of_alike {ds ds' : List Description}
    (h : List.Forall₂ (Description.Alike (Added s s')) ds ds') :
    Description.DiffersInAttributes s s' ds ds' where
  rest_eq := by
    have hequal : List.Forall₂ (fun d' d => d'.withoutAttributes = d.withoutAttributes) ds' ds :=
      h.flip.imp fun _ _ halike => halike.withoutAttributes_eq
    rw [← List.forall₂_eq_eq_eq, List.forall₂_map_left_iff, List.forall₂_map_right_iff]
    exact hequal
  added := by
    intro hwidens
    refine h.imp fun d d' halike => ?_
    exact halike.forall₂_attributeLists.imp fun _ _ hadded => hadded hwidens

theorem differsInAttributes_listAll (s s' : AttributeSettings) (r : ν) :
    Description.DiffersInAttributes s s' (listAll s r) (listAll s' r) := by
  apply differsInAttributes_of_alike
  exact listAll_alike carries_id (preorder_id r) (fun _ _ => trivial)
    (fun n _ => added_attributes s s' n) fun n _ _ => keepsParameters_id n

theorem differsInAttributes_describeAll (s s' : AttributeSettings) (r : ν) :
    SameOutcome (Description.DiffersInAttributes s s') (describeAll s r) (describeAll s' r) := by
  have halike : SameOutcome (List.Forall₂ (Description.Alike (Added s s'))) (describeAll s r)
      (describeAll s' (id r)) :=
    describeAll_alike carries_id (preorder_id r) (fun _ _ => trivial)
      (fun n _ => added_attributes s s' n) fun n _ _ => keepsParameters_id n
  exact halike.imp fun _ _ h => differsInAttributes_of_alike h

end Settings

end Describe

/-- Whatever the settings are, the nodes of every front end have the same strict listing but for
attributes, or the same error in its place, and the same lenient listing but for attributes; so have
source files. Where the second settings only recognize further keywords, each attribute list under
the first is part of the one in its place under the second. -/
theorem settings_decide_attributes_only (s s' : AttributeSettings) :
    (∀ (ν : Type) [SourceNode ν] (r : ν),
      SameOutcome (Description.DiffersInAttributes s s') (describeAll s r) (describeAll s' r) ∧
      Description.DiffersInAttributes s s' (listAll s r) (listAll s' r)) ∧
      ∀ f : SourceFile,
        Description.DiffersInAttributes s s' (f.descriptions s) (f.descriptions s') := by
  refine ⟨?_, ?_⟩
  · intro ν _ r
    exact ⟨differsInAttributes_describeAll s s' r, differsInAttributes_listAll s s' r⟩
  · intro f
    exact differsInAttributes_listAll s s' f.root

/-- Settings that recognize one keyword alone leave one of the two attributes of a function. -/
theorem settings_decide_attributes_only_runnerFile :
    (AttributeSettings.recognizing ["final"]).Widens {} ∧
      (runnerFile.descriptions (.recognizing ["final"])).map Description.attributeLists =
        [[["interface"], ["interface"]], [["interface"], ["interface"]], [["final"]]] ∧
      (runnerFile.descriptions {}).map Description.attributeLists =
        [[["public", "interface"], ["public", "interface"]],
          [["public", "interface"], ["public", "interface"]], [["public", "final"]]] ∧
      (runnerFile.descriptions {}).map Description.withoutAttributes =
        (runnerFile.descriptions (.recognizing ["final"])).map Description.withoutAttributes ∧
      List.Forall₂ (fun d d' => List.Forall₂ List.Sublist d.attributeLists d'.attributeLists)
        (runnerFile.descriptions (.recognizing ["final"])) (runnerFile.descriptions {}) := by
  have hwidens : (AttributeSettings.recognizing ["final"]).Widens {} :=
    ⟨by decide +kernel, rfl⟩
  have hfile := (settings_decide_attributes_only (.recognizing ["final"]) {}).2 runnerFile
  refine ⟨hwidens, ?_, ?_, hfile.rest_eq, hfile.added hwidens⟩
  · rw [SourceFile.descriptions, listAll_eq_filterMap, SourceFile.preorder_root_eq_walk]
    decide +kernel
  · rw [SourceFile.descriptions, listAll_eq_filterMap, SourceFile.preorder_root_eq_walk]
    decide +kernel

end DeclScribe
