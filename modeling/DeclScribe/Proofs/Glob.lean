import DeclScribe.Glob.Basic
import Mathlib.Data.List.Forall2

/-!
Lists of patterns. They are all read or none of them is: one text that spells no pattern, or one
pattern that nests too deep, spoils the whole list.
-/

namespace DeclScribe.Glob

/-- The patterns that paths may be selected by. -/
def IsValid (pattern : String) : Prop :=
  ∃ g, parse .selecting pattern = .ok g ∧ g.isTooDeep = false

theorem parseEach_eq_ok_iff {patterns : List String} {gs : List Glob} :
    parseEach patterns = .ok gs ↔
      List.Forall₂ (fun p g => parse .selecting p = .ok g) patterns gs := by
  induction patterns generalizing gs with
  | nil => simp [parseEach, eq_comm]
  | cons p ps ih =>
    rw [parseEach, List.forall₂_cons_left_iff]
    cases hp : parse .selecting p with
    | error fault => simp
    | ok g =>
      simp only [← ih]
      cases parseEach ps <;> simp [Except.map, eq_comm]

theorem isTooDeep_eq_false {g : Glob} (hextension : g.aspectOf ≠ .extension)
    (hexpression : g.aspectOf ≠ .expression) : g.isTooDeep = false := by
  unfold isTooDeep
  cases haspect : g.aspectOf with
  | name | text | component => rfl
  | extension => exact absurd haspect hextension
  | expression => exact absurd haspect hexpression

/-- The two searches together look at all patterns that can nest at all. -/
theorem depthError?_eq_none_iff {gs : List Glob} :
    depthError? gs = none ↔ ∀ g ∈ gs, g.isTooDeep = false := by
  have hextension : (gs.find? fun g => g.aspectOf = .extension && g.isTooDeep) = none ↔
      ∀ g ∈ gs, g.aspectOf = .extension → g.isTooDeep = false := by
    simp
  have hexpression : ((gs.filter (·.aspectOf = .expression)).findIdx? isTooDeep) = none ↔
      ∀ g ∈ gs, g.aspectOf = .expression → g.isTooDeep = false := by
    simp
  constructor
  · intro h g hg
    unfold depthError? at h
    split at h
    · cases h
    · next hnone =>
      rw [Option.map_eq_none_iff] at h
      by_cases hext : g.aspectOf = .extension
      · exact hextension.mp hnone g hg hext
      · by_cases hexp : g.aspectOf = .expression
        · exact hexpression.mp h g hg hexp
        · exact isTooDeep_eq_false hext hexp
  · intro h
    rw [depthError?, hextension.mpr fun g hg _ => h g hg]
    exact Option.map_eq_none_iff.mpr (hexpression.mpr fun g hg _ => h g hg)

theorem parseAll_eq_ok_iff {patterns : List String} {gs : List Glob} :
    parseAll patterns = .ok gs ↔
      List.Forall₂ (fun p g => parse .selecting p = .ok g) patterns gs ∧
        ∀ g ∈ gs, g.isTooDeep = false := by
  rw [← parseEach_eq_ok_iff, ← depthError?_eq_none_iff, parseAll]
  cases parseEach patterns with
  | error e => simp [bind, Except.bind]
  | ok hs =>
    simp only [bind, Except.bind, Except.ok.injEq]
    cases hdepth : depthError? hs with
    | none =>
      constructor
      · intro h
        cases h
        exact ⟨rfl, hdepth⟩
      · rintro ⟨rfl, -⟩
        rfl
    | some e =>
      constructor
      · intro h
        cases h
      · rintro ⟨rfl, hnone⟩
        cases hdepth.symm.trans hnone

/-- A list of patterns can be used exactly if each of them can. -/
theorem exists_parseAll_iff {patterns : List String} :
    (∃ gs, parseAll patterns = .ok gs) ↔ ∀ p ∈ patterns, IsValid p := by
  simp only [parseAll_eq_ok_iff]
  induction patterns with
  | nil => simp
  | cons p ps ih =>
    rw [List.forall_mem_cons, ← ih]
    constructor
    · rintro ⟨gs, hread, hdeep⟩
      obtain ⟨g, hs, hg, hps, rfl⟩ := List.forall₂_cons_left_iff.mp hread
      obtain ⟨hgdeep, hhsdeep⟩ := List.forall_mem_cons.mp hdeep
      exact ⟨⟨g, hg, hgdeep⟩, hs, hps, hhsdeep⟩
    · rintro ⟨⟨g, hg, hgdeep⟩, hs, hps, hhsdeep⟩
      exact ⟨g :: hs, .cons hg hps, List.forall_mem_cons.mpr ⟨hgdeep, hhsdeep⟩⟩

/-! ### Lists that cannot be used -/

/-- The first text that spells no pattern is the one that is named. -/
theorem parseAll_of_unreadable {front back : List String} {pattern : String} {fault : Fault}
    (hfront : ∀ p ∈ front, ∃ g, parse .selecting p = .ok g)
    (hpattern : parse .selecting pattern = .error fault) :
    parseAll (front ++ pattern :: back) = .error (.invalid pattern fault) := by
  have heach : parseEach (front ++ pattern :: back) = .error (.invalid pattern fault) := by
    induction front with
    | nil => rw [List.nil_append, parseEach, hpattern]
    | cons p front ih =>
      obtain ⟨⟨g, hg⟩, hrest⟩ := List.forall_mem_cons.mp hfront
      rw [List.cons_append, parseEach, hg, ih hrest]
      rfl
  rw [parseAll, heach]
  rfl

theorem message_of_depthError? {gs : List Glob} {e : PatternError} (h : depthError? gs = some e) :
    e.message = "invalid glob set" := by
  unfold depthError? at h
  split at h
  · cases h
    rfl
  · obtain ⟨i, -, rfl⟩ := Option.map_eq_some_iff.mp h
    rfl

/-- Where every text spells a pattern, one that nests too deep spoils the list unnamed. -/
theorem exists_error_of_deep {patterns : List String}
    (hread : ∀ p ∈ patterns, ∃ g, parse .selecting p = .ok g)
    (hdeep : ∃ p ∈ patterns, ¬ IsValid p) :
    ∃ e, parseAll patterns = .error e ∧ e.message = "invalid glob set" := by
  have heach : ∃ gs, parseEach patterns = .ok gs := by
    clear hdeep
    induction patterns with
    | nil => exact ⟨[], rfl⟩
    | cons p patterns ih =>
      obtain ⟨⟨g, hg⟩, hrest⟩ := List.forall_mem_cons.mp hread
      obtain ⟨gs, hgs⟩ := ih hrest
      exact ⟨g :: gs, by rw [parseEach, hg, hgs]; rfl⟩
  obtain ⟨gs, hgs⟩ := heach
  cases hdepth : depthError? gs with
  | some e =>
    refine ⟨e, ?_, message_of_depthError? hdepth⟩
    simp [parseAll, hgs, hdepth, bind, Except.bind, throw, throwThe, MonadExceptOf.throw]
  | none =>
    -- a list without an error has valid patterns only
    obtain ⟨p, hp, hinvalid⟩ := hdeep
    have hok : parseAll patterns = .ok gs := by
      simp [parseAll, hgs, hdepth, bind, Except.bind, pure, Except.pure]
    exact absurd (exists_parseAll_iff.mp ⟨gs, hok⟩ p hp) hinvalid

/-! ### Several lists -/

theorem parseAll_append {front back : List String} {gs hs : List Glob}
    (hfront : parseAll front = .ok gs) (hback : parseAll back = .ok hs) :
    parseAll (front ++ back) = .ok (gs ++ hs) := by
  obtain ⟨hgs, hgsDeep⟩ := parseAll_eq_ok_iff.mp hfront
  obtain ⟨hhs, hhsDeep⟩ := parseAll_eq_ok_iff.mp hback
  refine parseAll_eq_ok_iff.mpr ⟨List.rel_append hgs hhs, fun g hg => ?_⟩
  exact (List.mem_append.mp hg).elim (hgsDeep g) (hhsDeep g)

theorem ne_nil_of_parseAll {patterns : List String} {gs : List Glob}
    (h : parseAll patterns = .ok gs) (hne : patterns ≠ []) : gs ≠ [] := by
  rintro rfl
  exact hne (List.forall₂_nil_right_iff.mp (parseAll_eq_ok_iff.mp h).1)

/-- What two lists of patterns select is what one of them selects, unless one is empty. -/
theorem selects_append {gs hs : List Glob} (hgs : gs ≠ []) (hhs : hs ≠ []) (path : String) :
    selects (gs ++ hs) path = (selects gs path || selects hs path) := by
  have hmatches {gs : List Glob} (h : gs ≠ []) : selects gs path = anyMatches gs path := by
    rw [selects, List.isEmpty_eq_false_iff.mpr h, Bool.false_or]
  have hne : gs ++ hs ≠ [] := List.append_ne_nil_of_left_ne_nil hgs hs
  rw [hmatches hne, hmatches hgs, hmatches hhs, anyMatches, List.any_append]
  rfl

end DeclScribe.Glob
