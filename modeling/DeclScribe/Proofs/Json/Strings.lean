import DeclScribe.Json.Parser
import DeclScribe.Json.Printer
import Mathlib.Tactic.SplitIfs

/-!
Written strings. Every text is read back from its quoted form, and control characters stand in
none.
-/

namespace DeclScribe.Json

/-- The three ways in which a character stands in a string: for itself, behind a backslash as a
letter or a mark of its own, or by its number. -/
theorem escape_cases (c : Char) :
    (escape c = [c] ∧ c ≠ '"' ∧ c ≠ '\\' ∧ 0x20 ≤ c.toNat) ∨
      (∃ d, escape c = ['\\', d] ∧ 0x20 ≤ d.toNat ∧
        ∀ rest, readEscape (d :: rest) = some (c, rest)) ∨
      (escape c = ['\\', 'u', '0', '0', hexDigit (c.toNat / 16), hexDigit (c.toNat % 16)] ∧
        c.toNat < 0x20) := by
  unfold escape
  split_ifs with hquote hback hfeed hreturn htab hbell hform hcontrol
  · exact Or.inr (Or.inl ⟨'"', rfl, by decide, fun _ => by rw [hquote]; rfl⟩)
  · exact Or.inr (Or.inl ⟨'\\', rfl, by decide, fun _ => by rw [hback]; rfl⟩)
  · exact Or.inr (Or.inl ⟨'n', rfl, by decide, fun _ => hfeed ▸ rfl⟩)
  · exact Or.inr (Or.inl ⟨'r', rfl, by decide, fun _ => hreturn ▸ rfl⟩)
  · exact Or.inr (Or.inl ⟨'t', rfl, by decide, fun _ => htab ▸ rfl⟩)
  · exact Or.inr (Or.inl ⟨'b', rfl, by decide, fun _ => hbell ▸ rfl⟩)
  · exact Or.inr (Or.inl ⟨'f', rfl, by decide, fun _ => hform ▸ rfl⟩)
  · exact Or.inr (Or.inr ⟨rfl, hcontrol⟩)
  · exact Or.inl ⟨rfl, hquote, hback, Nat.le_of_not_lt hcontrol⟩

theorem hexValue?_hexDigit : ∀ n < 16, hexValue? (hexDigit n) = some n := by decide

theorem readUnicode_control {c : Char} (hc : c.toNat < 0x20) (rest : List Char) :
    readUnicode ('0' :: '0' :: hexDigit (c.toNat / 16) :: hexDigit (c.toNat % 16) :: rest) =
      some (c, rest) := by
  have hhigh : hexValue? (hexDigit (c.toNat / 16)) = some (c.toNat / 16) :=
    hexValue?_hexDigit _ (by omega)
  have hlow : hexValue? (hexDigit (c.toNat % 16)) = some (c.toNat % 16) :=
    hexValue?_hexDigit _ (by omega)
  have hzero : hexValue? '0' = some 0 := by decide
  have hn : c.toNat / 16 * 16 + c.toNat % 16 = c.toNat := by omega
  -- a control character is no half of a pair, so nothing further is read
  have htrail : ¬ (0xDC00 ≤ c.toNat ∧ c.toNat ≤ 0xDFFF) := by omega
  have hlead : ¬ (0xD800 ≤ c.toNat ∧ c.toNat ≤ 0xDBFF) := by omega
  simp [readUnicode, readHex, hhigh, hlow, hzero, hn, htrail, hlead, Char.ofNat_toNat]

/-- What stands for a character in a string is read as that character. -/
theorem readStringChar_escape (c : Char) (rest : List Char) :
    readStringChar (escape c ++ rest) = some (some c, rest) := by
  rcases escape_cases c with ⟨h, hquote, hback, hc⟩ | ⟨d, h, -, hd⟩ | ⟨h, hc⟩
  · rw [h, List.singleton_append, readStringChar.eq_3 c rest hquote hback,
      if_neg (Nat.not_lt.mpr hc)]
  · rw [h]
    change (readEscape (d :: rest)).map _ = _
    rw [hd]
    rfl
  · rw [h]
    change (readUnicode ('0' :: '0' :: hexDigit _ :: hexDigit _ :: rest)).map _ = _
    rw [readUnicode_control hc]
    rfl

theorem readStringChars_escape (cs rest : List Char) {fuel : Nat} (hfuel : cs.length < fuel) :
    readStringChars fuel (cs.flatMap escape ++ '"' :: rest) = some (cs, rest) := by
  induction cs generalizing fuel with
  | nil =>
    obtain ⟨n, rfl⟩ := Nat.exists_eq_add_of_lt hfuel
    rfl
  | cons c cs ih =>
    cases fuel with
    | zero => omega
    | succ n =>
      have hn : cs.length < n := Nat.lt_of_succ_lt_succ hfuel
      rw [List.flatMap_cons, List.append_assoc, readStringChars, readStringChar_escape]
      simp only [ih hn, Option.map_some]

theorem length_le_length_flatMap_escape (cs : List Char) :
    cs.length ≤ (cs.flatMap escape).length := by
  induction cs with
  | nil => exact Nat.le_refl 0
  | cons c cs ih =>
    have hpos : 0 < (escape c).length := by
      rcases escape_cases c with ⟨h, -⟩ | ⟨d, h, -⟩ | ⟨h, -⟩ <;> simp [h]
    simp only [List.flatMap_cons, List.length_append, List.length_cons]
    omega

/-- Every text is read back from its quoted form, whatever characters it has. -/
theorem readString_quote (s : String) (rest : List Char) :
    readString (quote s ++ rest) = some (s, rest) := by
  have hlen := length_le_length_flatMap_escape s.toList
  have hsplit : quote s ++ rest = '"' :: (s.toList.flatMap escape ++ '"' :: rest) := by
    simp [quote]
  rw [hsplit, readString, readStringChars_escape s.toList rest (by
    simp only [List.length_append, List.length_cons]
    omega)]
  simp

/-- Any character but a control character. -/
def Visible (c : Char) : Prop := 0x20 ≤ c.toNat

instance (c : Char) : Decidable (Visible c) := inferInstanceAs (Decidable (_ ≤ _))

theorem visible_hexDigit : ∀ n < 16, Visible (hexDigit n) := by decide

theorem visible_of_mem_escape {c : Char} : ∀ d ∈ escape c, Visible d := by
  rcases escape_cases c with ⟨h, -, -, hc⟩ | ⟨e, h, he, -⟩ | ⟨h, hc⟩
  · rw [h]
    exact List.forall_mem_singleton.mpr hc
  · rw [h]
    exact List.forall_mem_cons.mpr ⟨by decide, List.forall_mem_singleton.mpr he⟩
  · have hhigh := visible_hexDigit (c.toNat / 16) (by omega)
    have hlow := visible_hexDigit (c.toNat % 16) (by omega)
    rw [h]
    simp only [List.forall_mem_cons]
    exact ⟨by decide, by decide, by decide, by decide, hhigh, hlow, List.forall_mem_nil _⟩

theorem visible_of_mem_quote {s : String} {c : Char} (hc : c ∈ quote s) : Visible c := by
  simp only [quote, List.mem_cons, List.mem_append, List.mem_flatMap, List.not_mem_nil,
    or_false] at hc
  rcases hc with (rfl | ⟨d, -, hd⟩) | rfl
  · decide
  · exact visible_of_mem_escape c hd
  · decide

end DeclScribe.Json
