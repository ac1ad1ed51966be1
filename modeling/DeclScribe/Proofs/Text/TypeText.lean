import DeclScribe.Text.TypeText
import Mathlib.Data.List.Basic

/-!
Canonical type texts. White space is left only as a single space between two word characters; texts
in which it stands nowhere else are the ones that are canonical already, and they stay so when they
are put together.
-/

namespace DeclScribe.Text

/-- Wherever there is white space, it is a single space, and there is a word character on either
side of it. -/
def Tight (s : List Char) : Prop :=
  ∀ before c after, s = before ++ c :: after → isBlank c = true →
    c = ' ' ∧ (∃ l, before.getLast? = some l ∧ isWordChar l = true) ∧
      ∃ r, after.head? = some r ∧ isWordChar r = true

/-- What a canonical text is like: making it canonical leaves it as it is, and it has no white space
at its ends, none that is repeated, and none but single spaces that part two word characters. -/
structure IsCanonical (text : String) : Prop where
  fixed : canonicalType text = text
  head_not_blank : ∀ c, text.toList.head? = some c → isBlank c = false
  last_not_blank : ∀ c, text.toList.getLast? = some c → isBlank c = false
  not_repeated : ∀ before c d after, text.toList = before ++ c :: d :: after →
    isBlank c = true → isBlank d = false
  tight : Tight text.toList

section Characters

/-- The runs of white space characters, by their first and last code points. -/
def blankRanges : List (Nat × Nat) :=
  [(9, 13), (0x20, 0x20), (0x85, 0x85), (0xA0, 0xA0), (0x1680, 0x1680), (0x2000, 0x200A),
    (0x2028, 0x2029), (0x202F, 0x202F), (0x205F, 0x205F), (0x3000, 0x3000)]

theorem exists_blankRange_of_isBlank {c : Char} (h : isBlank c = true) :
    ∃ b ∈ blankRanges, b.1 ≤ c.toNat ∧ c.toNat ≤ b.2 := by
  simp only [isBlank, Bool.or_eq_true, Bool.and_eq_true, decide_eq_true_eq, beq_iff_eq] at h
  simp only [blankRanges, List.exists_mem_cons_iff, List.not_mem_nil, false_and, exists_false,
    or_false]
  omega

/-- No letter and no digit of any script is white space. -/
theorem isAlphanumeric_of_isBlank {c : Char} (h : isBlank c = true) : isAlphanumeric c = false := by
  have hapart : (alphanumericRanges.all fun r => blankRanges.all fun b =>
      Nat.blt r.2 b.1 || Nat.blt b.2 r.1) = true := by
    decide +kernel
  obtain ⟨b, hb, hfirst, hlast⟩ := exists_blankRange_of_isBlank h
  rw [Bool.eq_false_iff]
  intro hletter
  obtain ⟨r, hr, hwithin⟩ := List.any_eq_true.mp hletter
  have hdisjoint := List.all_eq_true.mp (List.all_eq_true.mp hapart r hr) b hb
  simp only [Bool.and_eq_true, decide_eq_true_eq] at hwithin
  simp only [Bool.or_eq_true, Nat.blt_eq] at hdisjoint
  omega

theorem isBlank_of_isWordChar {c : Char} (h : isWordChar c = true) : isBlank c = false := by
  by_contra hblank
  rw [Bool.not_eq_false] at hblank
  have hmark : c = '_' ∨ c = '$' ∨ c = '?' := by
    simpa [isWordChar, isAlphanumeric_of_isBlank hblank, or_assoc] using h
  rcases hmark with rfl | rfl | rfl <;> cases hblank

end Characters

section Tight

theorem tight_of_forall {s : List Char} (h : ∀ c ∈ s, isBlank c = false) : Tight s := by
  intro before c after hs hc
  have hmem : c ∈ s := hs ▸ List.mem_append_right before List.mem_cons_self
  rw [h c hmem] at hc
  cases hc

theorem tight_of_all {s : List Char} (h : (s.all fun c => !isBlank c) = true) : Tight s := by
  apply tight_of_forall
  intro c hc
  simpa using List.all_eq_true.mp h c hc

theorem tight_nil : Tight [] := tight_of_forall fun _ hc => absurd hc List.not_mem_nil

/-- Texts that are tight remain so when they are joined, with nothing between them. -/
theorem Tight.append {s t : List Char} (hs : Tight s) (ht : Tight t) : Tight (s ++ t) := by
  intro before c after hsplit hc
  rcases List.append_eq_append_iff.mp hsplit with ⟨front, hbefore, htail⟩ | ⟨part, hfront, hpart⟩
  · -- the blank is in the second text, and so is what stands in front of it
    obtain ⟨hspace, ⟨l, hl, hword⟩, hafter⟩ := ht front c after htail hc
    refine ⟨hspace, ⟨l, ?_, hword⟩, hafter⟩
    rw [hbefore, List.getLast?_append, hl]
    rfl
  · cases part with
    | nil =>
      -- a blank at the front of the second text
      obtain ⟨-, ⟨l, hl, -⟩, -⟩ := ht [] c after hpart.symm hc
      cases hl
    | cons d part =>
      rw [List.cons_append] at hpart
      obtain ⟨rfl, hafter⟩ := List.cons.inj hpart
      obtain ⟨hspace, hbefore, r, hr, hword⟩ := hs before c part hfront hc
      refine ⟨hspace, hbefore, r, ?_, hword⟩
      rw [hafter, List.head?_append, hr]
      rfl

/-- So do texts that are joined by a space, where the space parts word characters. -/
theorem Tight.append_space {s t : List Char} (hs : Tight s) (ht : Tight t)
    (hleft : ∃ l, s.getLast? = some l ∧ isWordChar l = true)
    (hright : ∃ r, t.head? = some r ∧ isWordChar r = true) : Tight (s ++ ' ' :: t) := by
  intro before c after hsplit hc
  rcases List.append_eq_append_iff.mp hsplit with ⟨front, hbefore, htail⟩ | ⟨part, hfront, hpart⟩
  · cases front with
    | nil =>
      -- the blank is the space itself
      obtain ⟨rfl, rfl⟩ := List.cons.inj htail
      rw [List.append_nil] at hbefore
      exact ⟨rfl, hbefore ▸ hleft, hright⟩
    | cons d front =>
      obtain ⟨-, ht'⟩ := List.cons.inj htail
      obtain ⟨hspace, ⟨l, hl, hword⟩, hafter⟩ := ht front c after ht' hc
      refine ⟨hspace, ⟨l, ?_, hword⟩, hafter⟩
      rw [hbefore, List.getLast?_append, List.getLast?_cons, hl]
      rfl
  · cases part with
    | nil =>
      obtain ⟨rfl, rfl⟩ := List.cons.inj hpart
      rw [List.append_nil] at hfront
      exact ⟨rfl, hfront ▸ hleft, hright⟩
    | cons d part =>
      rw [List.cons_append] at hpart
      obtain ⟨rfl, hafter⟩ := List.cons.inj hpart
      obtain ⟨hspace, hbefore, r, hr, hword⟩ := hs before c part hfront hc
      refine ⟨hspace, hbefore, r, ?_, hword⟩
      rw [hafter, List.head?_append, hr]
      rfl

/-- A tight text does not start with white space, and what follows a character of it is tight unless
it starts with white space. -/
theorem Tight.head {c : Char} {s : List Char} (h : Tight (c :: s)) : isBlank c = false := by
  by_contra hblank
  rw [Bool.not_eq_false] at hblank
  obtain ⟨-, ⟨l, hl, -⟩, -⟩ := h [] c s rfl hblank
  cases hl

theorem Tight.tail {c d : Char} {s : List Char} (h : Tight (c :: d :: s))
    (hd : isBlank d = false) : Tight (d :: s) := by
  intro before x after hsplit hx
  obtain ⟨hspace, ⟨l, hl, hword⟩, hafter⟩ := h (c :: before) x after (by rw [hsplit]; rfl) hx
  refine ⟨hspace, ⟨l, ?_, hword⟩, hafter⟩
  cases before with
  | nil =>
    -- then the blank would be the first character of the tail
    obtain ⟨rfl, -⟩ := List.cons.inj hsplit
    rw [hd] at hx
    cases hx
  | cons y before => rwa [List.getLast?_cons_cons] at hl

/-- A blank behind the first character is a space, and the text behind it is tight and starts with a
word character. -/
theorem Tight.second {c d : Char} {s : List Char} (h : Tight (c :: d :: s))
    (hd : isBlank d = true) : d = ' ' ∧ isWordChar c = true ∧
      ∃ e rest, s = e :: rest ∧ isWordChar e = true ∧ Tight s := by
  obtain ⟨rfl, ⟨l, hl, hleft⟩, e, he, hright⟩ := h [c] d s rfl hd
  obtain rfl : c = l := Option.some.inj hl
  obtain ⟨rest, rfl⟩ := List.head?_eq_some_iff.mp he
  refine ⟨rfl, hleft, e, rest, rfl, hright, ?_⟩
  intro before x after hsplit hx
  obtain ⟨hspace, ⟨l, hl, hword⟩, hafter⟩ :=
    h (c :: ' ' :: before) x after (by rw [hsplit]; rfl) hx
  refine ⟨hspace, ⟨l, ?_, hword⟩, hafter⟩
  cases before with
  | nil =>
    obtain ⟨rfl, -⟩ := List.cons.inj hsplit
    rw [isBlank_of_isWordChar hright] at hx
    cases hx
  | cons y before => rwa [List.getLast?_cons_cons, List.getLast?_cons_cons] at hl

end Tight

section Words

theorem words_cons_of_blank {c : Char} (rest : List Char) (h : isBlank c = true) :
    words (c :: rest) = words rest := by
  rw [words.eq_def]
  exact if_pos h

/-- A text that starts with no white space has a first word, and both start with the same
character. -/
theorem exists_words_cons {c : Char} (rest : List Char) (h : isBlank c = false) :
    ∃ w ws, words (c :: rest) = (c :: w) :: ws := by
  rw [words.eq_def]
  simp only [h, Bool.false_eq_true, if_false]
  cases rest with
  | nil => exact ⟨[], [], rfl⟩
  | cons d rest =>
    by_cases hd : isBlank d = true
    · exact ⟨[], _, if_pos hd⟩
    · simp only [hd]
      cases words (d :: rest) with
      | nil => exact ⟨[], [], rfl⟩
      | cons w ws => exact ⟨w, ws, rfl⟩

theorem words_singleton {c : Char} (h : isBlank c = false) : words [c] = [[c]] := by
  rw [words.eq_def]
  exact if_neg (Bool.eq_false_iff.mp h)

/-- A first character that white space follows is a word. -/
theorem words_cons_blank {c d : Char} (rest : List Char) (hc : isBlank c = false)
    (hd : isBlank d = true) : words (c :: d :: rest) = [c] :: words rest := by
  rw [← words_cons_of_blank rest hd, words.eq_def (c :: d :: rest)]
  simp only [hc, hd, Bool.false_eq_true, if_false, if_true]

/-- A first character that none follows belongs to the first word of what does follow. -/
theorem words_cons_cons {c d : Char} {rest w : List Char} {ws : List (List Char)}
    (hc : isBlank c = false) (hd : isBlank d = false) (h : words (d :: rest) = w :: ws) :
    words (c :: d :: rest) = (c :: w) :: ws := by
  rw [words.eq_def]
  simp only [hc, hd, h, Bool.false_eq_true, if_false]

/-- Words are not empty and have no white space in them. -/
theorem forall_mem_words (s : List Char) :
    ∀ w ∈ words s, w ≠ [] ∧ ∀ c ∈ w, isBlank c = false := by
  induction s with
  | nil => exact List.forall_mem_nil _
  | cons c rest ih =>
    by_cases hc : isBlank c = true
    · rw [words_cons_of_blank rest hc]
      exact ih
    · rw [Bool.not_eq_true] at hc
      have hsingle : [c] ≠ [] ∧ ∀ x ∈ [c], isBlank x = false :=
        ⟨List.cons_ne_nil c [], List.forall_mem_singleton.mpr hc⟩
      cases rest with
      | nil =>
        rw [words_singleton hc]
        exact List.forall_mem_singleton.mpr hsingle
      | cons d rest =>
        by_cases hd : isBlank d = true
        · rw [words_cons_blank rest hc hd, List.forall_mem_cons]
          rw [words_cons_of_blank rest hd] at ih
          exact ⟨hsingle, ih⟩
        · rw [Bool.not_eq_true] at hd
          obtain ⟨w, ws, hws⟩ := exists_words_cons rest hd
          rw [hws, List.forall_mem_cons] at ih
          rw [words_cons_cons hc hd hws, List.forall_mem_cons]
          refine ⟨⟨List.cons_ne_nil c _, ?_⟩, ih.2⟩
          exact List.forall_mem_cons.mpr ⟨hc, ih.1.2⟩

end Words

section Join

theorem head?_joinWords {w : List Char} (ws : List (List Char)) (h : w ≠ []) :
    (joinWords (w :: ws)).head? = w.head? := by
  obtain ⟨c, rest, rfl⟩ := List.exists_cons_of_ne_nil h
  cases ws <;> rfl

theorem needGap_iff {left right : List Char} : needGap left right = true ↔
    (∃ l, left.getLast? = some l ∧ isWordChar l = true) ∧
      ∃ r, right.head? = some r ∧ isWordChar r = true := by
  rw [needGap, Bool.and_eq_true, Option.any_eq_true_iff_get, Option.any_eq_true_iff_get]
  constructor
  · rintro ⟨⟨hl, hleft⟩, hr, hright⟩
    exact ⟨⟨_, (Option.some_get hl).symm, hleft⟩, _, (Option.some_get hr).symm, hright⟩
  · rintro ⟨⟨l, hl, hleft⟩, r, hr, hright⟩
    simp [hl, hr, hleft, hright]

/-- Whatever words are joined, the text is tight. -/
theorem tight_joinWords {ws : List (List Char)}
    (h : ∀ w ∈ ws, w ≠ [] ∧ ∀ c ∈ w, isBlank c = false) : Tight (joinWords ws) := by
  induction ws with
  | nil => exact tight_nil
  | cons w ws ih =>
    obtain ⟨hw, hws⟩ := List.forall_mem_cons.mp h
    have hword : Tight w := tight_of_forall hw.2
    have hrest := ih hws
    cases ws with
    | nil => exact hword
    | cons v rest =>
      have hv : v ≠ [] := (List.forall_mem_cons.mp hws).1.1
      rw [joinWords]
      by_cases hgap : needGap w v = true
      · obtain ⟨hleft, hright⟩ := needGap_iff.mp hgap
        rw [← head?_joinWords rest hv] at hright
        rw [if_pos hgap, List.append_assoc]
        exact hword.append_space hrest hleft hright
      · rw [if_neg hgap, List.append_nil]
        exact hword.append hrest

/-- A tight text is what its words make when they are joined. -/
theorem joinWords_words : ∀ {s : List Char}, Tight s → joinWords (words s) = s
  | [], _ => rfl
  | [c], h => by
    rw [words_singleton h.head]
    rfl
  | c :: d :: rest, h => by
    have hc : isBlank c = false := h.head
    by_cases hd : isBlank d = true
    · -- a word of one character, and behind the space a text that is tight again
      obtain ⟨rfl, hleft, e, more, rfl, hright, htight⟩ := h.second hd
      have ih := joinWords_words htight
      obtain ⟨w, ws, hws⟩ := exists_words_cons more htight.head
      have hgap : needGap [c] (e :: w) = true :=
        needGap_iff.mpr ⟨⟨c, rfl, hleft⟩, e, rfl, hright⟩
      rw [words_cons_blank _ hc hd]
      rw [hws] at ih ⊢
      rw [joinWords, if_pos hgap, ih]
      rfl
    · rw [Bool.not_eq_true] at hd
      have ih := joinWords_words (h.tail hd)
      obtain ⟨w, ws, hws⟩ := exists_words_cons rest hd
      rw [words_cons_cons hc hd hws]
      rw [hws] at ih
      rw [← ih]
      cases ws with
      | nil => rfl
      | cons v vs =>
        have hlast : (c :: d :: w).getLast? = (d :: w).getLast? := List.getLast?_cons_cons
        rw [joinWords, joinWords, needGap, needGap, hlast]
        rfl

end Join

theorem tight_canonicalType (text : String) : Tight (canonicalType text).toList := by
  rw [canonicalType, String.toList_ofList]
  exact tight_joinWords (forall_mem_words text.toList)

theorem canonicalType_of_tight {text : String} (h : Tight text.toList) :
    canonicalType text = text := by
  rw [canonicalType, joinWords_words h, String.ofList_toList]

theorem canonicalType_eq_self_iff {text : String} :
    canonicalType text = text ↔ Tight text.toList := by
  constructor
  · intro h
    rw [← h]
    exact tight_canonicalType text
  · exact canonicalType_of_tight

theorem isCanonical_of_tight {text : String} (h : Tight text.toList) : IsCanonical text where
  fixed := canonicalType_of_tight h
  head_not_blank := by
    intro c hc
    obtain ⟨rest, hrest⟩ := List.head?_eq_some_iff.mp hc
    rw [hrest] at h
    exact h.head
  last_not_blank := by
    intro c hc
    obtain ⟨front, hfront⟩ := List.getLast?_eq_some_iff.mp hc
    by_contra hblank
    rw [Bool.not_eq_false] at hblank
    obtain ⟨-, -, r, hr, -⟩ := h front c [] hfront hblank
    cases hr
  not_repeated := by
    intro before c d after hsplit hc
    obtain ⟨-, -, r, hr, hword⟩ := h before c (d :: after) hsplit hc
    obtain rfl : d = r := Option.some.inj hr
    exact isBlank_of_isWordChar hword
  tight := h

end DeclScribe.Text
