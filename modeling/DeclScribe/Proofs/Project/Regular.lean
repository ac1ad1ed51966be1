import DeclScribe.Project.Collect
import DeclScribe.Project.Snapshot
import DeclScribe.Proofs.PathOrder
import DeclScribe.Proofs.Project.FileTree

/-!
Regular trees of files. In each directory every name stands once and is a name that a path can
spell. Trees that are read from snapshots are regular, and a walk through a regular tree meets no
file twice.
-/

namespace DeclScribe

namespace Entry

variable {e : Entry} {entries : List (String × Entry)}

/-- Whether every directory at and below an entry lists names, each of them once. -/
inductive Regular : Entry → Prop
  | file (f : File) : Regular (file f)
  | directory {entries : List (String × Entry)} (hdistinct : (entries.map Prod.fst).Nodup)
    (hnames : ∀ e ∈ entries, Path.IsName e.1) (hentries : ∀ e ∈ entries, Regular e.2) :
    Regular (directory entries)

theorem Regular.of_entries (h : Regular (Entry.directory e.entries)) {c : Entry} {name : String}
    (hc : e.child? name = some c) : c.Regular := by
  cases h with
  | directory hdistinct hnames hentries =>
    obtain ⟨front, back, hsplit, -⟩ := List.lookup_eq_some_iff.mp hc
    have hmem : (name, c) ∈ e.entries := by
      rw [hsplit]
      simp
    exact hentries (name, c) hmem

theorem Regular.directory_entries (h : e.Regular) : Regular (Entry.directory e.entries) := by
  cases e with
  | file f => exact .directory List.nodup_nil (by simp [Entry.entries]) (by simp [Entry.entries])
  | directory entries => exact h

theorem Regular.of_at? (h : e.Regular) {c : Entry} {names : List String}
    (hc : e.at? names = some c) : c.Regular := by
  induction names generalizing e with
  | nil =>
    cases hc
    exact h
  | cons name names ih =>
    obtain ⟨d, hd, hc⟩ := Option.bind_eq_some_iff.mp hc
    exact ih (h.directory_entries.of_entries hd) hc

/-! ### Changes -/

theorem mem_setEntry {name : String} {new : Entry} {x : String × Entry}
    (h : x ∈ setEntry name new entries) : x = (name, new) ∨ x ∈ entries := by
  induction entries with
  | nil => exact Or.inl (List.mem_singleton.mp h)
  | cons y entries ih =>
    rw [setEntry] at h
    split_ifs at h with hy
    · exact (List.mem_cons.mp h).imp_right (List.mem_cons_of_mem y)
    · rcases List.mem_cons.mp h with rfl | h
      · exact Or.inr List.mem_cons_self
      · exact (ih h).imp_right (List.mem_cons_of_mem y)

theorem nodup_setEntry {name : String} {new : Entry} (h : (entries.map Prod.fst).Nodup) :
    ((setEntry name new entries).map Prod.fst).Nodup := by
  induction entries with
  | nil => exact List.nodup_singleton name
  | cons y entries ih =>
    obtain ⟨hfresh, hrest⟩ := List.nodup_cons.mp h
    rw [setEntry]
    split_ifs with hy
    · rw [← hy]
      exact h
    · refine List.nodup_cons.mpr ⟨fun hmem => ?_, ih hrest⟩
      obtain ⟨x, hx, hname⟩ := List.mem_map.mp hmem
      rcases mem_setEntry hx with rfl | hx
      · exact hy hname.symm
      · exact hfresh (hname ▸ List.mem_map_of_mem hx)

/-- A change that keeps entries regular does so wherever a chain of names leads. -/
theorem Regular.modifyAt {change : Entry → Entry} {names : List String}
    (hchange : ∀ e, Regular e → (change e).Regular) (hnames : ∀ n ∈ names, Path.IsName n)
    (h : e.Regular) : (e.modifyAt change names).Regular := by
  induction names generalizing e with
  | nil => exact hchange e h
  | cons name names ih =>
    obtain ⟨hname, hrest⟩ := List.forall_mem_cons.mp hnames
    have hentries := h.directory_entries
    have hchild : ((e.child? name).getD default).Regular := by
      cases hc : e.child? name with
      | none => exact .directory List.nodup_nil (by simp) (by simp)
      | some c => exact hentries.of_entries hc
    cases hentries with
    | directory hdistinct hlisted hbelow =>
      refine .directory (nodup_setEntry hdistinct) ?_ ?_
      · intro x hx
        rcases mem_setEntry hx with rfl | hx
        · exact hname
        · exact hlisted x hx
      · intro x hx
        rcases mem_setEntry hx with rfl | hx
        · exact ih hrest hchild
        · exact hbelow x hx

end Entry

/-! ### Snapshots -/

namespace FileTree

variable {t : FileTree} {base : List String}

theorem regular_addJson? {after : FileTree} {v : Json.Value} (hbase : ∀ n ∈ base, Path.IsName n)
    (hregular : t.top.Regular) (h : t.addJson? base v = some after) : after.top.Regular := by
  unfold addJson? at h
  obtain ⟨_, -, h⟩ := Option.bind_eq_some_iff.mp h
  obtain ⟨path, -, h⟩ := Option.bind_eq_some_iff.mp h
  have hnames : ∀ n ∈ base ++ Path.names path, Path.IsName n := by
    intro n hn
    exact (List.mem_append.mp hn).elim (hbase n) Path.isName_of_mem_names
  cases hfile : File.ofJson? v with
  | some f =>
    rw [hfile] at h
    cases h
    exact hregular.modifyAt (fun _ _ => .file f) hnames
  | none =>
    rw [hfile] at h
    cases h
    exact hregular.modifyAt (fun _ he => he) hnames

/-- All trees that are read from snapshots are regular. -/
theorem regular_ofJson? {values : List Json.Value} (hbase : ∀ n ∈ base, Path.IsName n)
    (h : ofJson? base values = some t) : t.top.Regular := by
  unfold ofJson? at h
  have hstart : (({ current := base } : FileTree).addDirectory base).top.Regular := by
    refine Entry.Regular.modifyAt (fun _ he => he) hbase ?_
    exact .directory List.nodup_nil (by simp) (by simp)
  generalize ({ current := base } : FileTree).addDirectory base = start at h hstart
  induction values generalizing start with
  | nil =>
    cases h
    exact hstart
  | cons v values ih =>
    obtain ⟨next, hnext, h⟩ := Option.bind_eq_some_iff.mp h
    exact ih next h (regular_addJson? hbase hstart hnext)

end FileTree

/-! ### Walks -/

namespace Project

variable {t : FileTree} {e : Entry}

theorem filesAmong_eq_flatMap (t : FileTree) (around : Surroundings) (path : String)
    (names : List String) (entries : List (String × Entry)) :
    filesAmong t around path names entries = entries.flatMap fun x =>
      if around.admits (Path.join path x.1) x.1 x.2.isDirectory then
        filesOf t around (Path.join path x.1) (names ++ [x.1]) x.2
      else [] := by
  induction entries with
  | nil => rfl
  | cons x entries ih =>
    rw [filesAmong, ih]
    rfl

/-- What is met below an entry has a chain of names that starts with that of the entry. -/
theorem exists_names_of_mem_filesOf (h : e.Regular) {around : Surroundings} {path : String}
    {names found : List String} (hfound : found ∈ filesOf t around path names e) :
    ∃ more, found = names ++ more ∧ ∀ n ∈ more, Path.IsName n := by
  induction h generalizing around path names with
  | file f =>
    rw [filesOf, List.mem_singleton] at hfound
    exact ⟨[], by simp [hfound]⟩
  | directory hdistinct hnames hentries ih =>
    rw [filesOf, filesAmong_eq_flatMap] at hfound
    obtain ⟨x, hx, hfound⟩ := List.mem_flatMap.mp hfound
    split_ifs at hfound
    · obtain ⟨more, rfl, hmore⟩ := ih x hx hfound
      refine ⟨x.1 :: more, by simp, ?_⟩
      exact List.forall_mem_cons.mpr ⟨hnames x hx, hmore⟩
    · cases hfound

theorem nodup_filesOf (h : e.Regular) (around : Surroundings) (path : String)
    (names : List String) : (filesOf t around path names e).Nodup := by
  induction h generalizing around path names with
  | file f => exact List.nodup_singleton names
  | directory hdistinct hnames hentries ih =>
    rw [filesOf, filesAmong_eq_flatMap, List.nodup_flatMap]
    constructor
    · intro x hx
      split_ifs
      · exact ih x hx _ _ _
      · exact List.nodup_nil
    · -- the names of two entries differ, and all that is met below them starts with these
      refine (List.pairwise_map.mp hdistinct).imp_of_mem fun {x y} hx hy hne found hfx hfy => ?_
      dsimp only at hfx hfy
      split_ifs at hfx hfy
      · obtain ⟨front, hfront, -⟩ := exists_names_of_mem_filesOf (hentries x hx) hfx
        obtain ⟨back, hback, -⟩ := exists_names_of_mem_filesOf (hentries y hy) hfy
        have heq : x.1 :: front = y.1 :: back := by simpa using hfront.symm.trans hback
        exact hne (List.cons.inj heq).1
      · cases hfy
      · cases hfx
      · cases hfx

theorem filesBelow_eq (t : FileTree) (user : List IgnoreRule) (root : String) :
    filesBelow t user root = [] ∨ ∃ base c, t.top.at? base = some c ∧
      filesBelow t user root = filesOf t (.ofRoot t user root base) root [] c := by
  unfold filesBelow
  cases t.locate root with
  | error fault => exact Or.inl rfl
  | ok base =>
    dsimp only
    cases hc : t.top.at? base with
    | none => exact Or.inl rfl
    | some c =>
      by_cases hdash : Path.isJust "-" root = true
      · exact Or.inl (if_pos hdash)
      · exact Or.inr ⟨base, c, hc, if_neg hdash⟩

/-- A walk meets every file once. -/
theorem nodup_filesBelow (h : t.top.Regular) (user : List IgnoreRule) (root : String) :
    (filesBelow t user root).Nodup := by
  rcases filesBelow_eq t user root with hnone | ⟨base, c, hc, hfiles⟩
  · rw [hnone]
    exact List.nodup_nil
  · rw [hfiles]
    exact nodup_filesOf (h.of_at? hc) _ _ _

/-- The text of the path to a file that a walk meets tells the way of the walk. -/
theorem names_ofNames_of_mem_filesBelow (h : t.top.Regular) {user : List IgnoreRule} {root : String}
    {names : List String} (hnames : names ∈ filesBelow t user root) :
    Path.names (Path.ofNames names) = names := by
  rcases filesBelow_eq t user root with hnone | ⟨base, c, hc, hfiles⟩
  · rw [hnone] at hnames
    cases hnames
  · rw [hfiles] at hnames
    obtain ⟨more, rfl, hmore⟩ := exists_names_of_mem_filesOf (h.of_at? hc) hnames
    exact Path.names_ofNames hmore

end Project

end DeclScribe
