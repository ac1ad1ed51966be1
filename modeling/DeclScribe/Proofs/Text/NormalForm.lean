import DeclScribe.Proofs.Text.TypeText

/-!
The normal form of type texts. What counts in a text is which characters other than white space it
has, in which order, and which neighbours among them are word characters with white space between
them. The canonical form tells just that, so texts that agree on it have one canonical form.
-/

namespace DeclScribe.Text

/-- The characters of a text other than white space. -/
def solid (s : List Char) : List Char := s.filter fun c => !isBlank c

/-- The white space of a text, cut at the other characters: what stands in front of the first of
them, what stands between each two neighbours, and what stands behind the last. -/
def gaps (s : List Char) : List (List Char) := s.splitOnP fun c => !isBlank c

/-- Whether the `i`th of the other characters and the next one are word characters and have white
space between them. -/
def partsWords (s : List Char) (i : Nat) : Bool :=
  (solid s)[i]?.any isWordChar && (solid s)[i + 1]?.any isWordChar &&
    (gaps s)[i + 1]?.any (!·.isEmpty)

/-- The characters other than white space in order, each with one space behind it if it is a word
character, so is the next one, and there is white space between the two. -/
def spaced (s : List Char) : List Char :=
  ((solid s).mapIdx fun i c => if partsWords s i then [c, ' '] else [c]).flatten

section Cons

variable {c : Char} (s : List Char)

theorem solid_cons_of_blank (h : isBlank c = true) : solid (c :: s) = solid s :=
  List.filter_cons_of_neg (by simp [h])

theorem solid_cons (h : isBlank c = false) : solid (c :: s) = c :: solid s :=
  List.filter_cons_of_pos (by simp [h])

theorem gaps_cons_of_blank (h : isBlank c = true) :
    gaps (c :: s) = (gaps s).modifyHead (c :: ·) := by
  rw [gaps, List.splitOnP_cons_eq_if_modifyHead, h]
  rfl

theorem gaps_cons (h : isBlank c = false) : gaps (c :: s) = [] :: gaps s := by
  rw [gaps, List.splitOnP_cons_eq_if_modifyHead, h]
  rfl

/-- The first gap is not empty where the text starts with white space. -/
theorem any_head?_gaps : (gaps s).head?.any (!·.isEmpty) = s.head?.any isBlank := by
  cases s with
  | nil => rfl
  | cons d s =>
    cases hd : isBlank d with
    | false =>
      rw [gaps_cons s hd]
      exact hd.symm
    | true =>
      obtain ⟨g, gs, hg⟩ := List.exists_cons_of_ne_nil (List.splitOnP_ne_nil (!isBlank ·) s)
      rw [gaps_cons_of_blank s hd, gaps, hg]
      exact hd.symm

/-- White space in front of a text parts nothing. -/
theorem partsWords_cons_of_blank (h : isBlank c = true) (i : Nat) :
    partsWords (c :: s) i = partsWords s i := by
  have hgap : (gaps (c :: s))[i + 1]? = (gaps s)[i + 1]? := by
    rw [gaps_cons_of_blank s h]
    cases gaps s <;> rfl
  rw [partsWords, partsWords, solid_cons_of_blank s h, hgap]

theorem partsWords_cons_succ (h : isBlank c = false) (i : Nat) :
    partsWords (c :: s) (i + 1) = partsWords s i := by
  rw [partsWords, partsWords, solid_cons s h, gaps_cons s h, List.getElem?_cons_succ,
    List.getElem?_cons_succ, List.getElem?_cons_succ]

theorem partsWords_cons_zero (h : isBlank c = false) : partsWords (c :: s) 0 =
    (isWordChar c && (solid s).head?.any isWordChar && s.head?.any isBlank) := by
  rw [← any_head?_gaps, List.head?_eq_getElem?, List.head?_eq_getElem?, partsWords, solid_cons s h,
    gaps_cons s h]
  rfl

theorem spaced_cons_of_blank (h : isBlank c = true) : spaced (c :: s) = spaced s := by
  simp only [spaced, solid_cons_of_blank s h, partsWords_cons_of_blank s h]

theorem spaced_cons (h : isBlank c = false) : spaced (c :: s) =
    c :: ((if partsWords (c :: s) 0 then [' '] else []) ++ spaced s) := by
  simp only [spaced, solid_cons s h, List.mapIdx_cons, List.flatten_cons, partsWords_cons_succ s h]
  split <;> rfl

end Cons

section Join

/-- Words start with the first character of the text that is not white space. -/
theorem head?_solid_of_words {s w : List Char} {ws : List (List Char)}
    (h : words s = w :: ws) : (solid s).head? = w.head? := by
  induction s with
  | nil => cases h
  | cons c s ih =>
    cases hc : isBlank c with
    | true =>
      rw [words_cons_of_blank s hc] at h
      rw [solid_cons_of_blank s hc]
      exact ih h
    | false =>
      obtain ⟨v, vs, hv⟩ := exists_words_cons s hc
      obtain ⟨rfl, -⟩ := List.cons.inj (h.symm.trans hv)
      rw [solid_cons s hc]
      rfl

theorem solid_eq_nil_of_words {s : List Char} (h : words s = []) : solid s = [] := by
  induction s with
  | nil => rfl
  | cons c s ih =>
    cases hc : isBlank c with
    | true =>
      rw [words_cons_of_blank s hc] at h
      rw [solid_cons_of_blank s hc]
      exact ih h
    | false =>
      obtain ⟨v, vs, hv⟩ := exists_words_cons s hc
      cases h.symm.trans hv

/-- Joining words goes through a text character by character: a space follows a character if the
text goes on with white space and a gap is needed in front of what is next. -/
theorem joinWords_words_cons {c : Char} (s : List Char) (h : isBlank c = false) :
    joinWords (words (c :: s)) =
      c :: ((if partsWords (c :: s) 0 then [' '] else []) ++ joinWords (words s)) := by
  rw [partsWords_cons_zero s h]
  cases s with
  | nil =>
    have hnone : words [] = [] := rfl
    rw [words_singleton h, hnone]
    simp [solid, joinWords]
  | cons d s =>
    cases hd : isBlank d with
    | true =>
      -- the character is a word, and what follows are the words behind the white space
      rw [words_cons_blank s h hd, words_cons_of_blank s hd, solid_cons_of_blank s hd]
      cases hws : words s with
      | nil => simp [solid_eq_nil_of_words hws, joinWords]
      | cons w ws => simp [joinWords, needGap, head?_solid_of_words hws, hd]
    | false =>
      -- the character belongs to the first word of what follows, which ends as it did
      obtain ⟨w, ws, hws⟩ := exists_words_cons s hd
      rw [words_cons_cons h hd hws, hws]
      cases ws with
      | nil => simp [joinWords, hd]
      | cons v vs => simp [joinWords, needGap, hd]

theorem joinWords_words_eq_spaced (s : List Char) : joinWords (words s) = spaced s := by
  induction s with
  | nil => rfl
  | cons c s ih =>
    cases hc : isBlank c with
    | true => rw [words_cons_of_blank s hc, spaced_cons_of_blank s hc, ih]
    | false => rw [joinWords_words_cons s hc, spaced_cons s hc, ih]

end Join

theorem toList_canonicalType (text : String) :
    (canonicalType text).toList = spaced text.toList := by
  rw [canonicalType, String.toList_ofList, joinWords_words_eq_spaced]

section Spaced

theorem solid_space_append (b : Bool) (s : List Char) :
    solid ((if b then [' '] else []) ++ s) = solid s := by
  cases b <;> rfl

theorem partsWords_space_append (b : Bool) (s : List Char) (i : Nat) :
    partsWords ((if b then [' '] else []) ++ s) i = partsWords s i := by
  cases b with
  | false => rfl
  | true => exact partsWords_cons_of_blank s rfl i

theorem solid_spaced (s : List Char) : solid (spaced s) = solid s := by
  induction s with
  | nil => rfl
  | cons c s ih =>
    cases hc : isBlank c with
    | true => rw [spaced_cons_of_blank s hc, solid_cons_of_blank s hc, ih]
    | false => rw [spaced_cons s hc, solid_cons _ hc, solid_cons s hc, solid_space_append, ih]

theorem head?_spaced (s : List Char) : (spaced s).head? = (solid s).head? := by
  induction s with
  | nil => rfl
  | cons c s ih =>
    cases hc : isBlank c with
    | true => rw [spaced_cons_of_blank s hc, solid_cons_of_blank s hc, ih]
    | false =>
      rw [spaced_cons s hc, solid_cons s hc]
      rfl

theorem any_head?_spaced (s : List Char) : (spaced s).head?.any isBlank = false := by
  rw [head?_spaced]
  cases h : (solid s).head? with
  | none => rfl
  | some c =>
    have hc := (List.mem_filter.mp (List.mem_of_head? h)).2
    simpa using hc

/-- The normal form parts the same word characters as the text. -/
theorem partsWords_spaced (s : List Char) (i : Nat) : partsWords (spaced s) i = partsWords s i := by
  induction s generalizing i with
  | nil => rfl
  | cons c s ih =>
    cases hc : isBlank c with
    | true => rw [spaced_cons_of_blank s hc, partsWords_cons_of_blank s hc, ih]
    | false =>
      rw [spaced_cons s hc]
      cases i with
      | succ i => rw [partsWords_cons_succ _ hc, partsWords_cons_succ s hc,
          partsWords_space_append, ih]
      | zero =>
        rw [partsWords_cons_zero _ hc, solid_space_append, solid_spaced]
        -- behind the character there is white space only if it is the space that was put there
        cases hparts : partsWords (c :: s) 0 with
        | true =>
          rw [partsWords_cons_zero s hc, Bool.and_eq_true] at hparts
          rw [hparts.1]
          rfl
        | false => simp [any_head?_spaced]

end Spaced

theorem spaced_eq_iff {s t : List Char} :
    spaced s = spaced t ↔ solid s = solid t ∧ ∀ i, partsWords s i = partsWords t i := by
  constructor
  · intro h
    refine ⟨?_, fun i => ?_⟩
    · rw [← solid_spaced s, h, solid_spaced]
    · rw [← partsWords_spaced s, h, partsWords_spaced]
  · rintro ⟨hsolid, hparts⟩
    simp only [spaced, hsolid, hparts]

section Append

theorem solid_append (s t : List Char) : solid (s ++ t) = solid s ++ solid t :=
  List.filter_append s t

theorem solid_eq_nil {s : List Char} (h : ∀ c ∈ s, isBlank c = true) : solid s = [] := by
  rw [solid, List.filter_eq_nil_iff]
  intro c hc
  simp [h c hc]

/-- A space is needed between two texts where the last character of the first and the first of the
second are word characters, white space aside. -/
def meetInWords (s t : List Char) : Bool :=
  (solid s).getLast?.any isWordChar && (solid t).head?.any isWordChar

theorem spaced_blank_append {w : List Char} (hw : ∀ c ∈ w, isBlank c = true) (t : List Char) :
    spaced (w ++ t) = spaced t := by
  induction w with
  | nil => rfl
  | cons c w ih =>
    obtain ⟨hc, hw⟩ := List.forall_mem_cons.mp hw
    rw [List.cons_append, spaced_cons_of_blank _ hc, ih hw]

/-- Where a text ends in white space, the next one is as if it stood behind the white space. -/
theorem any_head?_append_of_solid_eq_nil {s w : List Char} (t : List Char) (hs : solid s = [])
    (hne : w ≠ []) (hw : ∀ c ∈ w, isBlank c = true) :
    (s ++ w ++ t).head?.any isBlank = true := by
  cases s with
  | nil =>
    obtain ⟨d, w, rfl⟩ := List.exists_cons_of_ne_nil hne
    exact hw d List.mem_cons_self
  | cons d s =>
    have hd : ¬ (!isBlank d) = true := List.filter_eq_nil_iff.mp hs d List.mem_cons_self
    simpa using hd

/-- White space between two texts makes a space at most. -/
theorem spaced_append {s w t : List Char} (hne : w ≠ []) (hw : ∀ c ∈ w, isBlank c = true) :
    spaced (s ++ w ++ t) =
      spaced s ++ (if meetInWords s t then [' '] else []) ++ spaced t := by
  induction s with
  | nil => exact spaced_blank_append hw t
  | cons c s ih =>
    rw [List.cons_append, List.cons_append]
    cases hc : isBlank c with
    | true =>
      rw [spaced_cons_of_blank _ hc, spaced_cons_of_blank _ hc, ih, meetInWords, meetInWords,
        solid_cons_of_blank s hc]
    | false =>
      have hsolid : solid (s ++ w ++ t) = solid s ++ solid t := by
        rw [solid_append, solid_append, solid_eq_nil hw, List.append_nil]
      rw [spaced_cons _ hc, spaced_cons _ hc, ih, partsWords_cons_zero _ hc,
        partsWords_cons_zero _ hc, hsolid, meetInWords, meetInWords, solid_cons s hc]
      cases hs : solid s with
      | nil =>
        -- the character is the last one of the first text, so the space is the one between the two
        rw [any_head?_append_of_solid_eq_nil t hs hne hw]
        simp [spaced, hs]
      | cons d ds =>
        -- more of the first text follows, and it follows in the same way
        have hhead : (s ++ w ++ t).head? = s.head? := by
          cases s with
          | nil => cases hs
          | cons e s => rfl
        rw [hhead]
        simp

end Append

/-- The canonical form of a text is its normal form: the characters other than white space in their
order, with a space between two neighbours exactly where the text has white space between them and
both are word characters. So it loses and moves no such character, making it again changes nothing,
and two texts have the same one if and only if they have the same characters other than white space
and white space between the same word characters. Texts that are put together with white space
between them have their canonical forms put together, with a space where two word characters
meet. -/
theorem canonicalType_is_normal_form :
    (∀ s : String, (canonicalType s).toList = spaced s.toList) ∧
      (∀ s : String, canonicalType (canonicalType s) = canonicalType s) ∧
      (∀ s : String, solid (canonicalType s).toList = solid s.toList) ∧
      (∀ s t : String, canonicalType s = canonicalType t ↔
        solid s.toList = solid t.toList ∧ ∀ i, partsWords s.toList i = partsWords t.toList i) ∧
      ∀ a w b : String, w ≠ "" → isBlankText w = true →
        canonicalType (a ++ w ++ b) = canonicalType a ++
          (if meetInWords a.toList b.toList then " " else "") ++ canonicalType b := by
  refine ⟨toList_canonicalType, ?_, ?_, ?_, ?_⟩
  · intro s
    exact canonicalType_of_tight (tight_canonicalType s)
  · intro s
    rw [toList_canonicalType, solid_spaced]
  · intro s t
    rw [← String.toList_inj, toList_canonicalType, toList_canonicalType]
    exact spaced_eq_iff
  · intro a w b hne hw
    have hnil : w.toList ≠ [] := fun h => hne (String.toList_eq_nil_iff.mp h)
    have hspaces : (if meetInWords a.toList b.toList then " " else "").toList =
        if meetInWords a.toList b.toList then [' '] else [] := by
      split <;> rfl
    apply String.toList_injective
    calc (canonicalType (a ++ w ++ b)).toList
        = spaced (a.toList ++ w.toList ++ b.toList) := by
          rw [toList_canonicalType, String.toList_append, String.toList_append]
      _ = spaced a.toList ++ (if meetInWords a.toList b.toList then [' '] else []) ++
            spaced b.toList := spaced_append hnil (List.all_eq_true.mp hw)
      _ = _ := by
          rw [String.toList_append, String.toList_append, toList_canonicalType,
            toList_canonicalType, hspaces]

/-- A tab between two words and white space in front of a bracket: only the first is kept. -/
theorem canonicalType_is_normal_form_boundedType :
    "\t " ≠ "" ∧ isBlankText "\t " = true ∧
      canonicalType ("List < ? " ++ "\t " ++ " extends  T >") =
        canonicalType "List < ? " ++ " " ++ canonicalType " extends  T >" ∧
      canonicalType "List < ? " = "List<?" ∧ canonicalType " extends  T >" = "extends T>" := by
  have hne : "\t " ≠ "" := by decide
  have hblank : isBlankText "\t " = true := by decide +kernel
  have hmeet : meetInWords "List < ? ".toList " extends  T >".toList = true := by decide +kernel
  have hjoin := canonicalType_is_normal_form.2.2.2.2 "List < ? " "\t " " extends  T >" hne hblank
  rw [hmeet] at hjoin
  exact ⟨hne, hblank, hjoin, by decide +kernel, by decide +kernel⟩

end DeclScribe.Text
