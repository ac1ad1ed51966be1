import DeclScribe.Text.Blank

/-!
Cutting texts at separators and at line feeds.
-/

namespace DeclScribe.Text

section Split

variable {α : Type} [DecidableEq α] {separator : α}

theorem splitOn_of_not_mem {piece : List α} (h : separator ∉ piece) :
    splitOn separator piece = [piece] := by
  induction piece with
  | nil => rfl
  | cons c piece ih =>
    have hne : c ≠ separator := fun hc => h (hc ▸ List.mem_cons_self)
    have hpiece := ih fun hs => h (List.mem_cons_of_mem c hs)
    rw [splitOn, if_neg hne, hpiece]

theorem splitOn_ne_nil (s : List α) : splitOn separator s ≠ [] := by
  cases s with
  | nil => exact List.cons_ne_nil _ _
  | cons c rest =>
    rw [splitOn]
    split
    · exact List.cons_ne_nil _ _
    · cases splitOn separator rest <;> exact List.cons_ne_nil _ _

/-- A separator parts the pieces before it from those behind it. -/
theorem splitOn_append (s rest : List α) :
    splitOn separator (s ++ separator :: rest) = splitOn separator s ++ splitOn separator rest := by
  induction s with
  | nil => simp [splitOn]
  | cons c s ih =>
    by_cases hc : c = separator
    · rw [List.cons_append, splitOn, if_pos hc, ih, splitOn, if_pos hc, List.cons_append]
    · -- the first character joins the first piece, which the rest of the text always has
      have hne : splitOn separator s ≠ [] := splitOn_ne_nil s
      obtain ⟨piece, pieces, hs⟩ := List.exists_cons_of_ne_nil hne
      rw [List.cons_append, splitOn, if_neg hc, ih, splitOn, if_neg hc, hs]
      rfl

/-- Pieces that are each ended by the separator are found again, and nothing is left behind them. -/
theorem splitOn_flatMap {pieces : List (List α)} (h : ∀ piece ∈ pieces, separator ∉ piece) :
    splitOn separator (pieces.flatMap fun piece => piece ++ [separator]) = pieces ++ [[]] := by
  induction pieces with
  | nil => rfl
  | cons piece pieces ih =>
    have hpiece := splitOn_of_not_mem (h piece List.mem_cons_self)
    have hpieces := ih fun p hp => h p (List.mem_cons_of_mem piece hp)
    rw [List.flatMap_cons, List.append_assoc, List.singleton_append, splitOn_append, hpiece,
      hpieces]
    rfl

/-- Pieces with the separator between them are found again, if there are any. -/
theorem splitOn_intercalate {pieces : List (List α)} (hne : pieces ≠ [])
    (h : ∀ piece ∈ pieces, separator ∉ piece) :
    splitOn separator ([separator].intercalate pieces) = pieces := by
  induction pieces with
  | nil => exact absurd rfl hne
  | cons piece pieces ih =>
    obtain ⟨hpiece, hpieces⟩ := List.forall_mem_cons.mp h
    cases pieces with
    | nil =>
      rw [List.intercalate_singleton]
      exact splitOn_of_not_mem hpiece
    | cons next pieces =>
      have hrest := ih (List.cons_ne_nil next pieces) hpieces
      rw [List.intercalate_cons_cons, List.append_assoc, List.singleton_append, splitOn_append,
        splitOn_of_not_mem hpiece, hrest]
      rfl

/-- What holds of all of a text but its separators holds of all of its pieces, and the other way
round. -/
theorem forall_mem_splitOn_iff {P : α → Prop} (s : List α) :
    (∀ piece ∈ splitOn separator s, ∀ c ∈ piece, P c) ↔ ∀ c ∈ s, c = separator ∨ P c := by
  induction s with
  | nil => simp [splitOn]
  | cons c s ih =>
    by_cases hc : c = separator
    · rw [splitOn, if_pos hc, List.forall_mem_cons, ih, List.forall_mem_cons]
      simp [hc]
    · have hne : splitOn separator s ≠ [] := splitOn_ne_nil s
      obtain ⟨piece, pieces, hs⟩ := List.exists_cons_of_ne_nil hne
      rw [hs, List.forall_mem_cons] at ih
      rw [splitOn, if_neg hc, hs, List.forall_mem_cons, List.forall_mem_cons, List.forall_mem_cons,
        and_assoc, ih, or_iff_right hc]

end Split

/-- The lines of a text, cut at its line feeds. What stands behind the last line feed is a line
unless it is empty. -/
def linesOf (s : String) : List String :=
  let pieces := splitOn '\n' s.toList
  (pieces.dropLast ++ pieces.getLast?.toList.filter (!·.isEmpty)).map String.ofList

theorem toList_join_lines (lines : List String) :
    (String.join (lines.map fun line => line ++ "\n")).toList =
      (lines.map String.toList).flatMap fun piece => piece ++ ['\n'] := by
  rw [String.toList_join, List.flatMap_map, List.flatMap_map]
  congr 1
  funext line
  exact String.toList_append

/-- Lines that have no line feed of their own are found again in the text that they make up. -/
theorem linesOf_join {lines : List String} (h : ∀ line ∈ lines, '\n' ∉ line.toList) :
    linesOf (String.join (lines.map fun line => line ++ "\n")) = lines := by
  have hpieces : splitOn '\n' ((lines.map String.toList).flatMap fun piece => piece ++ ['\n']) =
      lines.map String.toList ++ [[]] := splitOn_flatMap (List.forall_mem_map.mpr h)
  simp only [linesOf, toList_join_lines, hpieces]
  simp

/-- Such a text has a line feed for each line. -/
theorem count_join {lines : List String} (h : ∀ line ∈ lines, '\n' ∉ line.toList) :
    (String.join (lines.map fun line => line ++ "\n")).toList.count '\n' = lines.length := by
  rw [toList_join_lines]
  induction lines with
  | nil => rfl
  | cons line lines ih =>
    have hline : line.toList.count '\n' = 0 :=
      List.count_eq_zero.mpr (h line List.mem_cons_self)
    have hlines := ih fun l hl => h l (List.mem_cons_of_mem line hl)
    rw [List.map_cons, List.flatMap_cons, List.count_append, List.count_append, hline, hlines,
      List.length_cons, List.count_singleton_self]
    omega

theorem getLast?_join {lines : List String} (h : lines ≠ []) :
    (String.join (lines.map fun line => line ++ "\n")).toList.getLast? = some '\n' := by
  obtain ⟨front, line, rfl⟩ := List.eq_nil_or_concat lines |>.resolve_left h
  rw [toList_join_lines]
  simp

end DeclScribe.Text
