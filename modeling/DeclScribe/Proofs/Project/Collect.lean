import DeclScribe.Project.Collect
import DeclScribe.Proofs.Project.FileTree

/-!
What is collected. A path that is collected below a directory leads to a file, and both the way that
the walk took and the path itself tell the language that was asked for.
-/

namespace DeclScribe.Project

variable {t : FileTree} {user : List IgnoreRule} {root : String} {languages : List Language}
  {patterns files : List String}

theorem ofPath?_walkedPath (root : String) (names : List String) :
    Language.ofPath? (walkedPath root names) =
      Language.ofPath? (Path.join root (Path.ofNames names)) := by
  cases names with
  | nil => exact (Language.ofPath?_join_empty root).symm
  | cons name names => rfl

/-- The collected paths are those of the files of the walk that are in one of the languages and
selected by the patterns. -/
theorem mem_sourceFiles_iff (h : sourceFiles t user root languages patterns = .ok files) :
    ∃ globs, Glob.parseAll patterns = .ok globs ∧ ∀ path, path ∈ files ↔
      ∃ names ∈ filesBelow t user root, path = Path.ofNames names ∧
        t.isFile (walkedPath root names) ∧
        (∃ l ∈ languages, Language.ofPath? (walkedPath root names) = some l) ∧
        Glob.selects globs path := by
  unfold sourceFiles at h
  cases hglobs : Glob.parseAll patterns with
  | error e =>
    rw [hglobs] at h
    cases h
  | ok globs =>
    rw [hglobs] at h
    cases h
    refine ⟨globs, rfl, fun path => ?_⟩
    simp only [List.mem_map, List.mem_mergeSort, List.mem_filter, Bool.and_eq_true,
      Option.any_eq_true, List.contains_iff_mem]
    constructor
    · rintro ⟨names, ⟨hnames, ⟨hfile, l, hl, hmem⟩, hselects⟩, rfl⟩
      exact ⟨names, hnames, rfl, hfile, ⟨l, hmem, hl⟩, hselects⟩
    · rintro ⟨names, hnames, rfl, hfile, ⟨l, hmem, hl⟩, hselects⟩
      exact ⟨names, ⟨hnames, ⟨hfile, l, hl, hmem⟩, hselects⟩, rfl⟩

/-- The second look at the language of a collected file sees what the walk saw. -/
theorem exists_language_of_mem_sourceFiles
    (h : sourceFiles t user root languages patterns = .ok files) {path : String}
    (hpath : path ∈ files) : ∃ l ∈ languages, Language.ofPath? (Path.join root path) = some l := by
  obtain ⟨globs, -, hmem⟩ := mem_sourceFiles_iff h
  obtain ⟨names, -, rfl, -, hlanguage, -⟩ := (hmem path).mp hpath
  rw [← ofPath?_walkedPath]
  exact hlanguage

end DeclScribe.Project
