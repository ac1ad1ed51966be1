import DeclScribe.Proofs.Description.Record
import DeclScribe.Proofs.Json.OneLine
import DeclScribe.Proofs.Text.Lines
import Mathlib.Data.List.Forall2

/-!
Descriptions one a line. No line feed stands within a line, whatever the texts of a description
hold, so the lines are found again, and each of them reads as the rendered description does.
-/

namespace DeclScribe.Description

open Json

/-- What is written of a description and read again: names and types that pair up, offsets that
fit a word, and a form that nests within the limit. -/
structure Readable (d : Description) : Prop where
  paired : ∀ e ∈ d.levels, e.parameters.names.length = e.parameters.types.length
  addressable : d.Addressable
  depth_le : d.toJson.depth ≤ 127

theorem read_compact (d : Description) (hd : d.Addressable) :
    read d.toJson.compact = read d.render :=
  (read_print Layout.isBlank_compact hd).trans (read_print Layout.isBlank_indented hd).symm

theorem Readable.read_compact {d : Description} (hd : d.Readable) :
    read d.toJson.compact = .ok d := by
  have hread : read d.toJson.compact =
      if d.toJson.depth ≤ 127 then d.validate.map fun _ => d else .error .malformed :=
    read_print Layout.isBlank_compact hd.addressable
  rw [hread, if_pos hd.depth_le, validate_of_paired hd.paired]
  rfl

theorem renderLines_eq_join (ds : List Description) :
    renderLines ds =
      String.join ((ds.map fun d => d.toJson.compact).map fun line => line ++ "\n") := by
  rw [renderLines, List.map_map]
  rfl

theorem not_mem_compact (ds : List Description) :
    ∀ line ∈ ds.map fun d => d.toJson.compact, '\n' ∉ line.toList := by
  intro line hline
  obtain ⟨d, -, rfl⟩ := List.mem_map.mp hline
  -- all numbers in the form are offsets, so it is written in digits, quoted texts and brackets
  have hnumbers : d.toJson.AllNumbers fun x => ∃ n, x = .natural n :=
    allNumbers_toJson fun e _ => ⟨e.offset, rfl⟩
  exact Value.not_mem_compact hnumbers

theorem linesOf_renderLines (ds : List Description) :
    Text.linesOf (renderLines ds) = ds.map fun d => d.toJson.compact := by
  rw [renderLines_eq_join]
  exact Text.linesOf_join (not_mem_compact ds)

theorem map_read_linesOf_renderLines {ds : List Description} (hds : ∀ d ∈ ds, d.Readable) :
    (Text.linesOf (renderLines ds)).map read = ds.map .ok := by
  rw [linesOf_renderLines, List.map_map]
  apply List.map_congr_left
  intro d hd
  exact (hds d hd).read_compact

/-- Each description takes one line that a line feed ends, and the lines read back as the
descriptions in their order, each as the rendered form of its description does. -/
theorem read_linesOf_renderLines (ds : List Description) (hds : ∀ d ∈ ds, d.Readable) :
    (renderLines ds).toList.count '\n' = ds.length ∧
      (ds ≠ [] → (renderLines ds).toList.getLast? = some '\n') ∧
      (Text.linesOf (renderLines ds)).length = ds.length ∧
      (Text.linesOf (renderLines ds)).map read = ds.map .ok ∧
      List.Forall₂ (fun line d => read line = read d.render) (Text.linesOf (renderLines ds)) ds := by
  have hlines := linesOf_renderLines ds
  refine ⟨?_, fun hne => ?_, ?_, map_read_linesOf_renderLines hds, ?_⟩
  · rw [renderLines_eq_join, Text.count_join (not_mem_compact ds), List.length_map]
  · rw [renderLines_eq_join]
    exact Text.getLast?_join (mt List.map_eq_nil_iff.mp hne)
  · rw [hlines, List.length_map]
  · rw [hlines, List.forall₂_map_left_iff]
    apply List.forall₂_same.mpr
    intro d hd
    exact read_compact d (hds d hd).addressable

/-- Two descriptions with line ends in their texts, one of them nested as deep as can be read. -/
def nestedPair : List Description :=
  [nestedLambdas ⟨["\r\n"], ["\"\\"]⟩ 124, nestedLambdas ⟨[], []⟩ 0]

theorem readable_nestedLambdas {ps : Parameters} (hps : ps.names.length = ps.types.length)
    {n : Nat} (hn : n ≤ 124) : (nestedLambdas ps n).Readable where
  paired := paired_nestedLambdas hps n
  addressable := addressable_nestedLambdas ps n
  depth_le := by
    rw [depth_nestedLambdas]
    omega

theorem read_linesOf_renderLines_nestedPair :
    (∀ d ∈ nestedPair, d.Readable) ∧ (renderLines nestedPair).toList.count '\n' = 2 ∧
      (Text.linesOf (renderLines nestedPair)).map read = nestedPair.map .ok := by
  have hreadable : ∀ d ∈ nestedPair, d.Readable :=
    List.forall_mem_cons.mpr ⟨readable_nestedLambdas rfl (by decide),
      List.forall_mem_singleton.mpr (readable_nestedLambdas rfl (by decide))⟩
  have hread := read_linesOf_renderLines nestedPair hreadable
  exact ⟨hreadable, hread.1, hread.2.2.2.1⟩

end DeclScribe.Description
