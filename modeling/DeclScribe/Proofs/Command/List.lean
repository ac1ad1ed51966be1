import DeclScribe.Command.Run
import DeclScribe.Proofs.Caret.Lookup
import DeclScribe.Proofs.Project.Collect
import DeclScribe.Proofs.Project.Listing

/-!
The output of a listing. Its grouped form and its lines come from the same entries, and these are
the entries of all collected files that hold text.
-/

namespace DeclScribe.Command

open Json

variable {t : FileTree} {env : Environment} {settings : AttributeSettings} {root : String}
  {language : Option String} {patterns : List String}

/-- A listing succeeds where the language is known, the patterns are valid and something is
collected. Only then does the form that is asked for matter. -/
theorem runList_eq_ok_iff {oneALine : Bool} {output : String} :
    runList t env settings root language patterns oneALine = .ok output ↔
      ∃ ls files, languages language = .ok ls ∧
        Project.sourceFiles t (Project.userRules t env) root ls patterns = .ok files ∧
        files ≠ [] ∧ output =
          if oneALine then Listing.renderLines (t.listFiles settings root files)
          else Listing.renderGrouped (t.listFiles settings root files) ++ "\n" := by
  unfold runList
  cases languages language with
  | error e => simp [bind, Except.bind]
  | ok ls =>
    cases hfiles : Project.sourceFiles t (Project.userRules t env) root ls patterns with
    | error e => simp [bind, Except.bind, hfiles, Except.mapError]
    | ok files =>
      simp only [bind, Except.bind, hfiles, Except.mapError, List.isEmpty_iff, Except.ok.injEq]
      by_cases hempty : files = []
      · rw [if_pos hempty]
        constructor
        · intro h
          cases h
        · rintro ⟨_, _, rfl, hcollected, hne, -⟩
          cases hfiles.symm.trans hcollected
          exact absurd hempty hne
      · rw [if_neg hempty]
        constructor
        · intro h
          cases h
          exact ⟨ls, files, rfl, hfiles, hempty, rfl⟩
        · rintro ⟨_, _, rfl, hcollected, -, rfl⟩
          cases hfiles.symm.trans hcollected
          rfl

/-- A directory with a source file and one that is no text. -/
def taskTree : FileTree where
  top := .directory [("p", .directory [
    ("A.java", .file { bytes := Text.encode taskFile.source, tree := some taskFile.tree }),
    ("B.kt", .file { bytes := [0xff] })])]
  current := ["p"]

theorem sourceFiles_taskTree :
    Project.sourceFiles taskTree (Project.userRules taskTree fun _ => none) "/p" Language.all [] =
      .ok ["A.java", "B.kt"] := by
  have hfiles : ((Project.filesBelow taskTree (Project.userRules taskTree fun _ => none)
      "/p").filter fun names => taskTree.isFile (Project.walkedPath "/p" names) &&
        (Language.ofPath? (Project.walkedPath "/p" names)).any Language.all.contains &&
        Glob.selects [] (Path.ofNames names)) = [["A.java"], ["B.kt"]] := by
    decide +kernel
  have hsorted : [["A.java"], ["B.kt"]].mergeSort Path.le = [["A.java"], ["B.kt"]] :=
    List.mergeSort_of_pairwise (by decide +kernel)
  change Except.ok ((List.mergeSort _ Path.le).map Path.ofNames) = Except.ok ["A.java", "B.kt"]
  rw [hfiles, hsorted]
  rfl

end DeclScribe.Command
