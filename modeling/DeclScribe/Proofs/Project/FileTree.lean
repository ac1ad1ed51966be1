import DeclScribe.Project.FileTree
import DeclScribe.Proofs.Path
import Mathlib.Data.List.Infix

/-!
Paths and what they lead to. A path is followed one segment at a time, and only from directories; a
file that is put somewhere else in the tree is not met on the way.
-/

namespace DeclScribe

namespace Entry

/-- Whether all files at and below an entry have a property. -/
inductive AllFiles (p : File → Prop) : Entry → Prop
  | file {f : File} (h : p f) : AllFiles p (file f)
  | directory {entries : List (String × Entry)} (h : ∀ e ∈ entries, AllFiles p e.2) :
    AllFiles p (directory entries)

theorem AllFiles.of_child? {p : File → Prop} {e c : Entry} {name : String} (he : e.AllFiles p)
    (hc : e.child? name = some c) : c.AllFiles p := by
  cases he with
  | file h => cases hc
  | @directory entries h =>
    obtain ⟨front, back, hentries, -⟩ := List.lookup_eq_some_iff.mp hc
    have hmem : (name, c) ∈ entries := by
      change entries = _ at hentries
      rw [hentries]
      simp
    exact h (name, c) hmem

theorem AllFiles.of_at? {p : File → Prop} {e : Entry} {names : List String} {f : File}
    (he : e.AllFiles p) (hf : e.at? names = some (.file f)) : p f := by
  induction names generalizing e with
  | nil =>
    cases hf
    cases he with
    | file h => exact h
  | cons name names ih =>
    obtain ⟨c, hc, hf⟩ := Option.bind_eq_some_iff.mp hf
    exact ih (he.of_child? hc) hf

end Entry

namespace FileTree

variable {t after : FileTree} {here next : List String} {segment path : String} {f : File}

theorem read_eq_ok_iff : t.read path = .ok f ↔
    ∃ names, t.locate path = .ok names ∧ t.top.at? names = some (.file f) := by
  unfold read
  cases t.locate path with
  | error e => simp [bind, Except.bind]
  | ok names =>
    simp only [bind, Except.bind, Except.ok.injEq, exists_eq_left']
    split <;> simp_all [pure, Except.pure, throw, throwThe, MonadExceptOf.throw]

theorem step_of_directory {entries : List (String × Entry)}
    (h : t.top.at? here = some (.directory entries)) (segment : String) :
    t.step here segment =
      if segment = "" || segment = "." then .ok here
      else if segment = ".." then .ok here.dropLast
      else if nameLimit < segment.utf8ByteSize then .error .tooLong
      else if (entries.lookup segment).isSome then .ok (here ++ [segment])
      else .error .missing := by
  rw [step, h]

theorem exists_directory_of_step (h : t.step here segment = .ok next) :
    ∃ entries, t.top.at? here = some (.directory entries) := by
  unfold step at h
  split at h
  · next entries hentries => exact ⟨entries, hentries⟩
  · cases h

/-- A later tree that keeps all directories, each with all its names. -/
structure Keeps (t after : FileTree) : Prop where
  current : after.current = t.current
  directories : ∀ here entries, t.top.at? here = some (.directory entries) →
    ∃ later, after.top.at? here = some (.directory later) ∧
      ∀ name, (entries.lookup name).isSome → (later.lookup name).isSome

theorem Keeps.step (hkeeps : t.Keeps after) (h : t.step here segment = .ok next) :
    after.step here segment = .ok next := by
  obtain ⟨entries, hentries⟩ := exists_directory_of_step h
  obtain ⟨later, hlater, hnames⟩ := hkeeps.directories here entries hentries
  rw [step_of_directory hentries] at h
  rw [step_of_directory hlater]
  by_cases hfound : (entries.lookup segment).isSome
  · rw [if_pos hfound] at h
    rw [if_pos (hnames segment hfound)]
    exact h
  · -- without an entry of that name the way stays here or goes up
    rw [if_neg hfound] at h
    split_ifs at h with hblank hup
    · rw [if_pos hblank]
      exact h
    · rw [if_neg hblank, if_pos hup]
      exact h

theorem Keeps.foldlM_step (hkeeps : t.Keeps after) {segments : List String}
    (h : segments.foldlM t.step here = .ok next) :
    segments.foldlM after.step here = .ok next := by
  induction segments generalizing here with
  | nil => exact h
  | cons segment segments ih =>
    rw [List.foldlM_cons] at h ⊢
    cases hstep : t.step here segment with
    | error e =>
      rw [hstep] at h
      cases h
    | ok there =>
      rw [hstep] at h
      rw [hkeeps.step hstep]
      exact ih h

theorem Keeps.locate (hkeeps : t.Keeps after) {names : List String}
    (h : t.locate path = .ok names) : after.locate path = .ok names := by
  unfold FileTree.locate at h ⊢
  rw [hkeeps.current]
  split_ifs at h ⊢ <;> exact hkeeps.foldlM_step h

end FileTree

end DeclScribe
