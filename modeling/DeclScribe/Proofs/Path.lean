import DeclScribe.Language
import DeclScribe.Proofs.Text.Lines
import Mathlib.Tactic.SplitIfs

/-!
Joined paths and extensions. A path that is joined to another one ends as it does alone, so it keeps
its name, its extension and its language.
-/

namespace DeclScribe

namespace Path

theorem segments_append_slash (base path : String) :
    segments (base ++ "/" ++ path) = segments base ++ segments path := by
  have htext : (base ++ "/" ++ path).toList = base.toList ++ '/' :: path.toList := by simp
  rw [segments, htext, Text.splitOn_append, List.map_append]
  rfl

/-- Nothing joined to a path leaves it as it is, but for a slash at its end. -/
theorem extension_join_empty (base : String) : extension (join base "") = extension base := by
  have hnames : names (join base "") = names base := by
    unfold join
    split_ifs with halone hslash
    · have hempty : base = "" := by simpa [isAbsolute] using halone
      rw [hempty]
    · rw [String.append_empty]
    · rw [names, segments_append_slash, List.filter_append]
      exact List.append_nil _
  rw [extension, extension, fileName, fileName, hnames]

/-- The extension is all that stands behind the last dot. -/
theorem extension_eq_of_split {path name extension : String} {front back : List Char}
    (hname : fileName path = some name) (hsplit : name.toList = front ++ '.' :: back)
    (hback : '.' ∉ back) (h : Path.extension path = some extension) :
    extension = String.ofList back := by
  have hall : ∀ c ∈ back.reverse, decide (c ≠ '.') = true := by
    intro c hc
    apply decide_eq_true
    rintro rfl
    exact hback (List.mem_reverse.mp hc)
  have hend : name.toList.reverse.takeWhile (fun c => decide (c ≠ '.')) = back.reverse := by
    rw [hsplit, List.reverse_append, List.reverse_cons, List.append_assoc,
      List.takeWhile_append_of_pos hall, List.singleton_append,
      List.takeWhile_cons_of_neg (by decide), List.append_nil]
  rw [Path.extension, hname, Option.bind_some, hend, List.reverse_reverse] at h
  dsimp only at h
  split at h
  · exact (Option.some.inj h).symm
  · cases h

end Path

theorem Language.ofPath?_join_empty (base : String) :
    ofPath? (Path.join base "") = ofPath? base := by
  rw [ofPath?, ofPath?, Path.extension_join_empty]

end DeclScribe
