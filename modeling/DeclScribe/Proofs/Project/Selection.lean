import DeclScribe.Proofs.Glob.Nesting
import DeclScribe.Proofs.Project.Collect
import DeclScribe.Proofs.Project.Regular

/-!
Collected files as a selection. What is collected depends on which files a walk meets and not on
the order in which it meets them. It is listed in the order of paths, it falls apart by languages,
and a list of patterns selects what one of its parts selects.
-/

namespace DeclScribe.Project

variable {t : FileTree} {user : List IgnoreRule} {root : String} {languages : List Language}
  {patterns files : List String} {globs : List Glob}

/-- What is collected of the files that a walk meets, in the order in which it meets them. -/
def collected (t : FileTree) (root : String) (languages : List Language) (patterns : List String)
    (walk : List (List String)) : Except Glob.PatternError (List String) := do
  let globs ← Glob.parseAll patterns
  let files := walk.filter fun names =>
    t.isFile (walkedPath root names) &&
      (Language.ofPath? (walkedPath root names)).any languages.contains &&
      Glob.selects globs (Path.ofNames names)
  return (files.mergeSort Path.le).map Path.ofNames

theorem sourceFiles_eq_collected (t : FileTree) (user : List IgnoreRule) (root : String)
    (languages : List Language) (patterns : List String) :
    sourceFiles t user root languages patterns =
      collected t root languages patterns (filesBelow t user root) := rfl

/-- The order of the walk does not matter. -/
theorem collected_congr {walk other : List (List String)} (h : walk.Perm other) :
    collected t root languages patterns walk = collected t root languages patterns other := by
  unfold collected
  cases Glob.parseAll patterns with
  | error e => rfl
  | ok globs =>
    refine congrArg (fun l => Except.ok (List.map Path.ofNames l)) ?_
    apply Path.mergeSort_congr
    exact h.filter _

/-! ### What is selected -/

/-- A file in one of the languages that a walk meets. -/
def IsSource (t : FileTree) (user : List IgnoreRule) (root : String) (languages : List Language)
    (path : String) : Prop :=
  ∃ names ∈ filesBelow t user root, path = Path.ofNames names ∧
    t.isFile (walkedPath root names) ∧
    ∃ l ∈ languages, Language.ofPath? (walkedPath root names) = some l

theorem sourceFiles_of_parseAll_error {e : Glob.PatternError}
    (h : Glob.parseAll patterns = .error e) :
    sourceFiles t user root languages patterns = .error e := by
  rw [sourceFiles, h]
  rfl

/-- Patterns that can be used select files by name. -/
theorem exists_sourceFiles (t : FileTree) (user : List IgnoreRule) (root : String)
    (languages : List Language) (hglobs : Glob.parseAll patterns = .ok globs) :
    ∃ files, sourceFiles t user root languages patterns = .ok files ∧
      ∀ path, path ∈ files ↔
        IsSource t user root languages path ∧ Glob.selects globs path = true := by
  have hfiles : ∃ files, sourceFiles t user root languages patterns = .ok files := by
    rw [sourceFiles, hglobs]
    exact ⟨_, rfl⟩
  obtain ⟨files, hfiles⟩ := hfiles
  refine ⟨files, hfiles, fun path => ?_⟩
  obtain ⟨globs', hglobs', hmem⟩ := mem_sourceFiles_iff hfiles
  cases hglobs.symm.trans hglobs'
  rw [hmem, IsSource]
  constructor
  · rintro ⟨names, hnames, hpath, hfile, hlanguage, hselects⟩
    exact ⟨⟨names, hnames, hpath, hfile, hlanguage⟩, hselects⟩
  · rintro ⟨⟨names, hnames, hpath, hfile, hlanguage⟩, hselects⟩
    exact ⟨names, hnames, hpath, hfile, hlanguage, hselects⟩

/-- What is collected is listed in the order of paths, and no path twice. -/
theorem increasing_sourceFiles (hregular : t.top.Regular)
    (h : sourceFiles t user root languages patterns = .ok files) : Path.Increasing files := by
  unfold sourceFiles at h
  cases hglobs : Glob.parseAll patterns with
  | error e =>
    rw [hglobs] at h
    cases h
  | ok globs =>
    rw [hglobs] at h
    cases h
    refine List.pairwise_map.mpr ?_
    -- on regular trees the texts can be compared by the names that the walk has found
    set met := (filesBelow t user root).filter fun names =>
      t.isFile (walkedPath root names) &&
        (Language.ofPath? (walkedPath root names)).any languages.contains &&
        Glob.selects globs (Path.ofNames names)
    have hmet {names : List String} (hnames : names ∈ met.mergeSort Path.le) :
        Path.names (Path.ofNames names) = names :=
      names_ofNames_of_mem_filesBelow hregular
        (List.mem_of_mem_filter (List.mem_mergeSort.mp hnames))
    have hsorted := Path.pairwise_mergeSort met
    have hnodup : (met.mergeSort Path.le).Nodup := by
      rw [(List.mergeSort_perm met Path.le).nodup_iff]
      exact (nodup_filesBelow hregular user root).filter _
    refine (hsorted.and hnodup).imp_of_mem fun {a b} ha hb hab => ?_
    rw [hmet ha, hmet hb]
    exact lt_of_le_of_ne hab.1 hab.2

/-! ### Languages -/

theorem isSource_all_iff {path : String} : IsSource t user root Language.all path ↔
    IsSource t user root [.java] path ∨ IsSource t user root [.kotlin] path := by
  simp only [IsSource, Language.all, List.mem_cons, List.not_mem_nil, or_false, exists_eq_or_imp,
    exists_eq_left, ← exists_or, ← and_or_left]

/-- The path of a file tells its language. -/
theorem disjoint_sourceFiles {java kotlin : List String}
    (hjava : sourceFiles t user root [.java] patterns = .ok java)
    (hkotlin : sourceFiles t user root [.kotlin] patterns = .ok kotlin) :
    java.Disjoint kotlin := by
  intro path hpath hpath'
  obtain ⟨l, hl, hlanguage⟩ := exists_language_of_mem_sourceFiles hjava hpath
  obtain ⟨l', hl', hlanguage'⟩ := exists_language_of_mem_sourceFiles hkotlin hpath'
  rw [List.mem_singleton] at hl hl'
  subst hl hl'
  cases hlanguage.symm.trans hlanguage'

/-- What is collected for all languages is what is collected for each of them. -/
theorem sourceFiles_all (hregular : t.top.Regular) (user : List IgnoreRule) (root : String)
    (patterns : List String) :
    sourceFiles t user root Language.all patterns = do
      let java ← sourceFiles t user root [.java] patterns
      let kotlin ← sourceFiles t user root [.kotlin] patterns
      return java.merge kotlin Path.precedes := by
  cases hglobs : Glob.parseAll patterns with
  | error e =>
    rw [sourceFiles_of_parseAll_error hglobs, sourceFiles_of_parseAll_error hglobs]
    rfl
  | ok globs =>
    obtain ⟨files, hfiles, hmem⟩ := exists_sourceFiles t user root Language.all hglobs
    obtain ⟨java, hjava, hmemJava⟩ := exists_sourceFiles t user root [.java] hglobs
    obtain ⟨kotlin, hkotlin, hmemKotlin⟩ := exists_sourceFiles t user root [.kotlin] hglobs
    rw [hfiles, hjava, hkotlin]
    refine congrArg Except.ok ?_
    refine (increasing_sourceFiles hregular hfiles).eq_merge
      (increasing_sourceFiles hregular hjava) (increasing_sourceFiles hregular hkotlin)
      (disjoint_sourceFiles hjava hkotlin) fun path => ?_
    rw [hmem, hmemJava, hmemKotlin, isSource_all_iff, or_and_right]

/-! ### Patterns -/

/-- Two lists of patterns, neither of them empty, together select what one of them selects. -/
theorem exists_sourceFiles_append (hregular : t.top.Regular) (user : List IgnoreRule)
    (root : String) (languages : List Language) {front back : List String} (hfront : front ≠ [])
    (hback : back ≠ []) (hvalid : ∀ p ∈ front ++ back, Glob.IsValid p) :
    ∃ ps qs, sourceFiles t user root languages front = .ok ps ∧
      sourceFiles t user root languages back = .ok qs ∧
      sourceFiles t user root languages (front ++ back) =
        .ok ((ps ∪ qs).mergeSort Path.precedes) := by
  obtain ⟨hvalidFront, hvalidBack⟩ := List.forall_mem_append.mp hvalid
  obtain ⟨gs, hgs⟩ := Glob.exists_parseAll_iff.mpr hvalidFront
  obtain ⟨hs, hhs⟩ := Glob.exists_parseAll_iff.mpr hvalidBack
  have hboth := Glob.parseAll_append hgs hhs
  obtain ⟨ps, hps, hmemFront⟩ := exists_sourceFiles t user root languages hgs
  obtain ⟨qs, hqs, hmemBack⟩ := exists_sourceFiles t user root languages hhs
  obtain ⟨files, hfiles, hmem⟩ := exists_sourceFiles t user root languages hboth
  refine ⟨ps, qs, hps, hqs, ?_⟩
  rw [hfiles]
  refine congrArg Except.ok ?_
  have hnodup := (increasing_sourceFiles hregular hqs).nodup
  refine (increasing_sourceFiles hregular hfiles).eq_mergeSort_union hnodup fun path => ?_
  rw [hmem, hmemFront, hmemBack, Glob.selects_append (Glob.ne_nil_of_parseAll hgs hfront)
    (Glob.ne_nil_of_parseAll hhs hback), Bool.or_eq_true, and_or_left]

/-- Source files are collected by a sorted selection. It is the same for every order in which a walk
meets the files, each of which it meets once. What is collected increases strictly, component by
component. For all languages it is the merge of what is collected for each of them, and these share
no path. Two lists of patterns, neither empty and all of them valid, together select the sorted
union of what they select, while no pattern at all selects every file of the languages. The first
text that spells no pattern is named whatever the files are; where all of them spell patterns, one
that nests too deep spoils the list unnamed. -/
theorem sourceFiles_is_sorted_selection (hregular : t.top.Regular) (user : List IgnoreRule)
    (root : String) :
    (filesBelow t user root).Nodup ∧
      (∀ walk, walk.Perm (filesBelow t user root) → ∀ languages patterns,
        collected t root languages patterns walk = sourceFiles t user root languages patterns) ∧
      (∀ languages patterns files, sourceFiles t user root languages patterns = .ok files →
        files.Pairwise fun a b => Path.names a < Path.names b) ∧
      (∀ patterns, sourceFiles t user root Language.all patterns = do
        let java ← sourceFiles t user root [.java] patterns
        let kotlin ← sourceFiles t user root [.kotlin] patterns
        return java.merge kotlin Path.precedes) ∧
      (∀ patterns java kotlin, sourceFiles t user root [.java] patterns = .ok java →
        sourceFiles t user root [.kotlin] patterns = .ok kotlin → java.Disjoint kotlin) ∧
      (∀ languages front back, front ≠ [] → back ≠ [] →
        (∀ p ∈ front ++ back, Glob.IsValid p) →
          ∃ ps qs, sourceFiles t user root languages front = .ok ps ∧
            sourceFiles t user root languages back = .ok qs ∧
            sourceFiles t user root languages (front ++ back) =
              .ok ((ps ∪ qs).mergeSort Path.precedes)) ∧
      (∀ languages, ∃ files, sourceFiles t user root languages [] = .ok files ∧
        ∀ path, path ∈ files ↔ IsSource t user root languages path) ∧
      (∀ languages front pattern back fault,
        (∀ p ∈ front, ∃ g, Glob.parse .selecting p = .ok g) →
          Glob.parse .selecting pattern = .error fault →
            ∃ e, sourceFiles t user root languages (front ++ pattern :: back) = .error e ∧
              e.message = "invalid glob `" ++ pattern ++ "`") ∧
      ∀ languages patterns, (∀ p ∈ patterns, ∃ g, Glob.parse .selecting p = .ok g) →
        (∃ p ∈ patterns, ¬ Glob.IsValid p) →
          ∃ e, sourceFiles t user root languages patterns = .error e ∧
            e.message = "invalid glob set" := by
  refine ⟨nodup_filesBelow hregular user root, ?_, ?_, sourceFiles_all hregular user root, ?_, ?_,
    ?_, ?_, ?_⟩
  · intro walk hwalk languages patterns
    rw [sourceFiles_eq_collected]
    exact collected_congr hwalk
  · intro languages patterns files hfiles
    exact increasing_sourceFiles hregular hfiles
  · intro patterns java kotlin hjava hkotlin
    exact disjoint_sourceFiles hjava hkotlin
  · intro languages front back hfront hback hvalid
    exact exists_sourceFiles_append hregular user root languages hfront hback hvalid
  · intro languages
    obtain ⟨files, hfiles, hmem⟩ := exists_sourceFiles t user root languages
      (show Glob.parseAll [] = .ok [] from rfl)
    exact ⟨files, hfiles, fun path => (hmem path).trans (and_iff_left rfl)⟩
  · intro languages front pattern back fault hfront hpattern
    have herror : Glob.parseAll (front ++ pattern :: back) = .error (.invalid pattern fault) :=
      Glob.parseAll_of_unreadable hfront hpattern
    exact ⟨_, sourceFiles_of_parseAll_error herror, rfl⟩
  · intro languages patterns hread hdeep
    obtain ⟨e, he, hmessage⟩ := Glob.exists_error_of_deep hread hdeep
    exact ⟨e, sourceFiles_of_parseAll_error he, hmessage⟩

/-- Three files whose names sort otherwise as texts than as components of paths. -/
def unsortedTree : FileTree where
  top := .directory [("p", .directory [("a.java", .file default), ("a-b.kt", .file default),
    ("a", .directory [("B.java", .file default)])])]
  current := ["p"]

theorem regular_unsortedTree : unsortedTree.top.Regular := by
  have hdirectory : Entry.Regular (.directory [("B.java", .file default)]) := by
    refine .directory (by decide) ?_ ?_
    · exact List.forall_mem_singleton.mpr ⟨by decide, by decide, by decide⟩
    · exact List.forall_mem_singleton.mpr (.file _)
  refine .directory (by decide) ?_ ?_
  · exact List.forall_mem_singleton.mpr ⟨by decide, by decide, by decide⟩
  · refine List.forall_mem_singleton.mpr (.directory (by decide) ?_ ?_)
    · simp only [List.forall_mem_cons]
      exact ⟨⟨by decide, by decide, by decide⟩, ⟨by decide, by decide, by decide⟩,
        ⟨by decide, by decide, by decide⟩, List.forall_mem_nil _⟩
    · simp only [List.forall_mem_cons]
      exact ⟨.file _, .file _, hdirectory, List.forall_mem_nil _⟩

/-- The walk meets the files in another order than that in which they are collected. -/
theorem sourceFiles_is_sorted_selection_unsortedTree :
    unsortedTree.top.Regular ∧
      filesBelow unsortedTree [] "/p" = [["a.java"], ["a-b.kt"], ["a", "B.java"]] ∧
      sourceFiles unsortedTree [] "/p" Language.all [] =
        .ok ["a/B.java", "a-b.kt", "a.java"] := by
  have hregular := regular_unsortedTree
  obtain ⟨-, hwalk, -⟩ := sourceFiles_is_sorted_selection hregular [] "/p"
  have hmet : filesBelow unsortedTree [] "/p" = [["a.java"], ["a-b.kt"], ["a", "B.java"]] := by
    decide +kernel
  have hperm : [["a", "B.java"], ["a-b.kt"], ["a.java"]].Perm
      (filesBelow unsortedTree [] "/p") := by
    rw [hmet]
    decide
  refine ⟨hregular, hmet, ?_⟩
  rw [← hwalk _ hperm]
  have hkept : ([["a", "B.java"], ["a-b.kt"], ["a.java"]].filter fun names =>
      unsortedTree.isFile (walkedPath "/p" names) &&
        (Language.ofPath? (walkedPath "/p" names)).any Language.all.contains &&
        Glob.selects [] (Path.ofNames names)) = [["a", "B.java"], ["a-b.kt"], ["a.java"]] := by
    decide +kernel
  have hsorted : [["a", "B.java"], ["a-b.kt"], ["a.java"]].mergeSort Path.le =
      [["a", "B.java"], ["a-b.kt"], ["a.java"]] :=
    List.mergeSort_of_pairwise (by decide +kernel)
  change Except.ok ((List.mergeSort _ Path.le).map Path.ofNames) = _
  rw [hkept, hsorted]
  rfl

/-- Three hundred pairs of braces can be read but not used, and the error does not name them. -/
theorem exists_deep_pattern_that_is_not_named :
    ∃ pattern, pattern = Glob.nestedPattern 300 ∧
      (∃ g, Glob.parse .selecting pattern = .ok g) ∧ ¬ Glob.IsValid pattern ∧
      ∀ languages, ∃ e, sourceFiles unsortedTree [] "/p" languages [pattern] = .error e ∧
        e.message = "invalid glob set" ∧ e.message ≠ "invalid glob `" ++ pattern ++ "`" := by
  have hread : ∃ g, Glob.parse .selecting (Glob.nestedPattern 300) = .ok g :=
    ⟨_, Glob.parse_nestedPattern 300⟩
  have hdeep : ¬ Glob.IsValid (Glob.nestedPattern 300) := by
    rw [Glob.isValid_nestedPattern_iff]
    decide
  have hother (pattern : String) : "invalid glob set" ≠ "invalid glob `" ++ pattern ++ "`" := by
    intro h
    have hchars := congrArg (fun s : String => s.toList[13]?) h
    simp at hchars
  generalize Glob.nestedPattern 300 = pattern at hread hdeep ⊢
  obtain ⟨e, he, hmessage⟩ := Glob.exists_error_of_deep (List.forall_mem_singleton.mpr hread)
    ⟨_, List.mem_singleton_self _, hdeep⟩
  refine ⟨pattern, rfl, hread, hdeep, fun languages => ?_⟩
  exact ⟨e, sourceFiles_of_parseAll_error he, hmessage, hmessage ▸ hother pattern⟩

end DeclScribe.Project
