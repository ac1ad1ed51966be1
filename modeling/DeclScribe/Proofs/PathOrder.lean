import DeclScribe.Path
import DeclScribe.Proofs.Text.Lines
import Mathlib.Data.List.Basic
import Mathlib.Data.List.Lex
import Mathlib.Data.List.Nodup
import Mathlib.Data.String.Basic

/-!
The order of paths. Components are compared as texts and paths as lists of components, so the order
is a linear one, and a list of paths in strictly increasing order is known by its members.
-/

namespace DeclScribe.Path

theorem nameLt_iff {a b : String} : nameLt a b = true ↔ a < b := by
  have hchar : (fun c d : Char => decide (c.toNat < d.toNat) = true) = fun c d => c < d := by
    ext c d
    rw [decide_eq_true_iff]
    exact UInt32.lt_iff_toNat_lt.symm
  rw [nameLt, List.lex_eq_true_iff_lex, hchar, String.lt_iff_toList_lt]
  rfl

/-- The order is that of lists of texts. -/
theorem le_iff {a b : List String} : le a b = true ↔ a ≤ b := by
  have hname : (fun c d : String => nameLt c d = true) = fun c d => c < d := by
    ext c d
    exact nameLt_iff
  have hlt : List.lex b a nameLt = true ↔ b < a := by
    rw [List.lex_eq_true_iff_lex, hname]
    rfl
  calc le a b = true
    _ ↔ ¬ List.lex b a nameLt = true := by simp [le]
    _ ↔ ¬ b < a := not_congr hlt
    _ ↔ a ≤ b := not_lt

theorem trans_le (a b c : List String) (hab : le a b = true) (hbc : le b c = true) :
    le a c = true := by
  rw [le_iff] at hab hbc ⊢
  exact hab.trans hbc

theorem total_le (a b : List String) : (le a b || le b a) = true := by
  rw [Bool.or_eq_true, le_iff, le_iff]
  exact le_total a b

theorem pairwise_mergeSort (paths : List (List String)) :
    (paths.mergeSort le).Pairwise fun a b => a ≤ b :=
  (List.pairwise_mergeSort trans_le total_le paths).imp le_iff.mp

/-- The sorted list is the same for every order of its members. -/
theorem mergeSort_congr {paths other : List (List String)} (h : paths.Perm other) :
    paths.mergeSort le = other.mergeSort le := by
  have hperm : (paths.mergeSort le).Perm (other.mergeSort le) :=
    (List.mergeSort_perm paths le).trans (h.trans (List.mergeSort_perm other le).symm)
  apply hperm.eq_of_pairwise _ (pairwise_mergeSort paths) (pairwise_mergeSort other)
  intro a b _ _ hab hba
  exact le_antisymm hab hba

/-! ### Texts of paths -/

/-- A text that names something, and nothing else. -/
structure IsName (s : String) : Prop where
  ne_empty : s ≠ ""
  ne_here : s ≠ "."
  no_slash : '/' ∉ s.toList

theorem isName_of_mem_names {path s : String} (h : s ∈ names path) : IsName s := by
  obtain ⟨hs, hblank⟩ := List.mem_filter.mp h
  obtain ⟨piece, hpiece, rfl⟩ := List.mem_map.mp hs
  have hslash : ∀ c ∈ piece, c ≠ '/' :=
    (Text.forall_mem_splitOn_iff path.toList).mpr (fun c _ => or_iff_not_imp_left.mpr id)
      piece hpiece
  simp only [ne_eq, Bool.and_eq_true, decide_eq_true_eq] at hblank
  refine ⟨hblank.1, hblank.2, fun hmem => ?_⟩
  rw [String.toList_ofList] at hmem
  exact hslash '/' hmem rfl

/-- The text of a list of names tells the names. -/
theorem names_ofNames {ns : List String} (h : ∀ n ∈ ns, IsName n) : names (ofNames ns) = ns := by
  by_cases hne : ns = []
  · subst hne
    rfl
  · have htext : (ofNames ns).toList = ['/'].intercalate (ns.map String.toList) := by
      rw [ofNames, String.toList_intercalate]
      rfl
    have hsegments : segments (ofNames ns) = ns := by
      rw [segments, htext, Text.splitOn_intercalate]
      · simp
      · simpa using hne
      · intro piece hpiece
        obtain ⟨n, hn, rfl⟩ := List.mem_map.mp hpiece
        exact (h n hn).no_slash
    rw [names, hsegments]
    apply List.filter_eq_self.mpr
    intro n hn
    simp [(h n hn).ne_empty, (h n hn).ne_here]

/-- Whether a path comes no later than another. -/
def precedes (a b : String) : Bool := le (names a) (names b)

/-- Whether paths are listed in strictly increasing order, component by component. -/
def Increasing (paths : List String) : Prop := paths.Pairwise fun a b => names a < names b

section Increasing

variable {paths : List String}

theorem Increasing.nodup_map_names (h : Increasing paths) : (paths.map names).Nodup :=
  List.pairwise_map.mpr (h.imp ne_of_lt)

theorem Increasing.nodup (h : Increasing paths) : paths.Nodup := h.nodup_map_names.of_map

theorem Increasing.pairwise_precedes (h : Increasing paths) :
    paths.Pairwise fun a b => precedes a b = true :=
  h.imp fun hlt => le_iff.mpr hlt.le

/-- Sorted paths that are in an increasing list, each once, are that list. -/
theorem Increasing.eq_of_sorted {sorted : List String} (h : Increasing paths)
    (hsorted : sorted.Pairwise fun a b => precedes a b = true) (hnodup : sorted.Nodup)
    (hmem : ∀ path, path ∈ paths ↔ path ∈ sorted) : paths = sorted := by
  have hperm : paths.Perm sorted := (List.perm_ext_iff_of_nodup h.nodup hnodup).mpr hmem
  refine List.Perm.eq_of_pairwise ?_ h.pairwise_precedes hsorted hperm
  intro a b ha hb hab hba
  have hnames : names a = names b := le_antisymm (le_iff.mp hab) (le_iff.mp hba)
  exact List.inj_on_of_nodup_map h.nodup_map_names ha ((hmem b).mpr hb) hnames

theorem precedes_trans (a b c : String) (hab : precedes a b = true) (hbc : precedes b c = true) :
    precedes a c = true :=
  trans_le _ _ _ hab hbc

theorem precedes_total (a b : String) : (precedes a b || precedes b a) = true := total_le _ _

/-- What two increasing lists hold that share no path is, in increasing order, their merge. -/
theorem Increasing.eq_merge {front back : List String} (h : Increasing paths)
    (hfront : Increasing front) (hback : Increasing back) (hdisjoint : front.Disjoint back)
    (hmem : ∀ path, path ∈ paths ↔ path ∈ front ∨ path ∈ back) :
    paths = front.merge back precedes := by
  apply h.eq_of_sorted
  · exact List.pairwise_merge precedes_trans precedes_total front back
      hfront.pairwise_precedes hback.pairwise_precedes
  · rw [(List.merge_perm_append precedes).nodup_iff]
    exact hfront.nodup.append hback.nodup hdisjoint
  · intro path
    rw [List.mem_merge]
    exact hmem path

/-- What two lists hold is, in increasing order, their sorted union. -/
theorem Increasing.eq_mergeSort_union {front back : List String} (h : Increasing paths)
    (hback : back.Nodup) (hmem : ∀ path, path ∈ paths ↔ path ∈ front ∨ path ∈ back) :
    paths = (front ∪ back).mergeSort precedes := by
  apply h.eq_of_sorted
  · exact List.pairwise_mergeSort precedes_trans precedes_total _
  · rw [(List.mergeSort_perm _ _).nodup_iff]
    exact hback.union front
  · intro path
    rw [List.mem_mergeSort, List.mem_union_iff]
    exact hmem path

end Increasing

end DeclScribe.Path
