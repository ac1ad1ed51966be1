import DeclScribe.Json.Parser
import DeclScribe.Proofs.Json.Nesting
import Mathlib.Tactic.SplitIfs

/-!
What is known of every value that a text spells: it nests no deeper than readers follow, and its
naturals fit a word.
-/

namespace DeclScribe.Json

section Lists

variable {α : Type} {item : Reader α} {closing : Char} {p : α → Prop}

theorem forall_of_readItems (hitem : ∀ s a rest, item s = some (a, rest) → p a) {fuel : Nat}
    {s rest : List Char} {as : List α} (h : readItems item closing fuel s = some (as, rest)) :
    ∀ a ∈ as, p a := by
  induction fuel generalizing s as rest with
  | zero => cases h
  | succ n ih =>
    simp only [readItems, Option.bind_eq_bind, Option.bind_eq_some_iff, Prod.exists] at h
    obtain ⟨a, t, ha, h⟩ := h
    split at h
    · simp only [Option.bind_eq_some_iff, Prod.exists] at h
      obtain ⟨bs, u, hbs, h⟩ := h
      cases h
      exact List.forall_mem_cons.mpr ⟨hitem _ _ _ ha, ih hbs⟩
    · split at h
      · cases h
        exact List.forall_mem_singleton.mpr (hitem _ _ _ ha)
      · cases h
    · cases h

theorem forall_of_readList (hitem : ∀ s a rest, item s = some (a, rest) → p a)
    {s rest : List Char} {as : List α} (h : readList item closing s = some (as, rest)) :
    ∀ a ∈ as, p a := by
  unfold readList at h
  split at h
  · cases h
  · split at h
    · cases h
      exact List.forall_mem_nil p
    · exact forall_of_readItems hitem h

end Lists

theorem Numeral.inRange_of_number? {x : Numeral} {n : Number} (h : x.number? = some n) :
    n.InRange := by
  intro m hm
  subst hm
  simp only [number?] at h
  split_ifs at h with hplain
  · simp only [Bool.and_eq_true, decide_eq_true_eq] at hplain
    cases h
    exact hplain.2
  · cases h

theorem inRange_of_readNumber {s rest : List Char} {n : Number}
    (h : readNumber s = some (n, rest)) : n.InRange := by
  simp only [readNumber, Option.bind_eq_bind, Option.bind_eq_some_iff, Prod.exists] at h
  obtain ⟨_, _, -, _, _, -, _, _, -, m, hm, h⟩ := h
  cases h
  exact Numeral.inRange_of_number? hm

/-- What readers guarantee of a value. -/
structure Value.Parsed (limit : Nat) (v : Value) : Prop where
  depth_le : v.depth ≤ limit
  inRange : v.AllNumbers Number.InRange

theorem readWord_eq_some {word : List Char} {v w : Value} {s rest : List Char}
    (h : readWord word v s = some (w, rest)) : w = v := by
  unfold readWord at h
  split at h
  · exact (congrArg Prod.fst (Option.some.inj h)).symm
  · cases h

theorem parsed_of_readScalar {s rest : List Char} {v : Value} (h : readScalar s = some (v, rest))
    (limit : Nat) : v.Parsed limit := by
  unfold readScalar at h
  split at h
  · obtain ⟨a, -, ha⟩ := Option.map_eq_some_iff.mp h
    cases ha
    exact ⟨Nat.zero_le limit, .string _⟩
  · exact readWord_eq_some h ▸ ⟨Nat.zero_le limit, .null⟩
  · exact readWord_eq_some h ▸ ⟨Nat.zero_le limit, .bool _⟩
  · exact readWord_eq_some h ▸ ⟨Nat.zero_le limit, .bool _⟩
  · obtain ⟨a, ha, hv⟩ := Option.map_eq_some_iff.mp h
    cases hv
    exact ⟨Nat.zero_le limit, .number (inRange_of_readNumber ha)⟩

theorem forall_of_readMember {value : Reader Value} {p : Value → Prop}
    (hvalue : ∀ s v rest, value s = some (v, rest) → p v) {s rest : List Char}
    {m : String × Value} (h : readMember value s = some (m, rest)) : p m.2 := by
  simp only [readMember, Option.bind_eq_bind, Option.bind_eq_some_iff, Prod.exists] at h
  obtain ⟨name, t, -, h⟩ := h
  split at h
  · simp only [Option.bind_eq_some_iff, Prod.exists] at h
    obtain ⟨v, u, hv, h⟩ := h
    cases h
    exact hvalue _ _ _ hv
  · cases h

/-- A value that was read is an array, an object, or neither. -/
theorem readValue_cases {limit : Nat} {s rest : List Char} {v : Value}
    (h : readValue limit s = some (v, rest)) :
    (∃ n t items, limit = n + 1 ∧ readList (readValue n) ']' t = some (items, rest) ∧
        v = .array items) ∨
      (∃ n t members, limit = n + 1 ∧
        readList (readMember (readValue n)) '}' t = some (members, rest) ∧ v = .object members) ∨
      readScalar s = some (v, rest) := by
  unfold readValue at h
  split at h
  · next n t =>
    obtain ⟨⟨items, u⟩, hread, hv⟩ := Option.map_eq_some_iff.mp h
    cases hv
    exact Or.inl ⟨n, t, items, rfl, hread, rfl⟩
  · next n t =>
    obtain ⟨⟨members, u⟩, hread, hv⟩ := Option.map_eq_some_iff.mp h
    cases hv
    exact Or.inr (Or.inl ⟨n, t, members, rfl, hread, rfl⟩)
  · exact Or.inr (Or.inr h)

theorem parsed_of_readValue {limit : Nat} {s rest : List Char} {v : Value}
    (h : readValue limit s = some (v, rest)) : v.Parsed limit := by
  -- on the limit, which is one less within an array or an object
  induction limit using Nat.strongRecOn generalizing s v rest with
  | ind limit ih =>
    rcases readValue_cases h with
      ⟨n, t, items, rfl, hread, rfl⟩ | ⟨n, t, members, rfl, hread, rfl⟩ | hread
    · have hitem : ∀ s w rest, readValue n s = some (w, rest) → Value.Parsed n w :=
        fun _ _ _ hw => ih n (Nat.lt_succ_self n) hw
      have hall : ∀ w ∈ items, Value.Parsed n w := forall_of_readList hitem hread
      exact ⟨Value.depth_array_le_iff.mpr fun w hw => (hall w hw).depth_le,
        .array fun w hw => (hall w hw).inRange⟩
    · have hitem : ∀ s w rest, readValue n s = some (w, rest) → Value.Parsed n w :=
        fun _ _ _ hw => ih n (Nat.lt_succ_self n) hw
      have hmember : ∀ s m rest, readMember (readValue n) s = some (m, rest) →
          Value.Parsed n m.2 := by
        intro s m rest hm
        exact forall_of_readMember hitem hm
      have hall : ∀ m ∈ members, Value.Parsed n m.2 := forall_of_readList hmember hread
      exact ⟨Value.depth_object_le_iff.mpr fun m hm => (hall m hm).depth_le,
        .object fun m hm => (hall m hm).inRange⟩
    · exact parsed_of_readScalar hread limit

theorem Value.parsed_of_parse? {text : String} {v : Value} (h : Value.parse? text = some v) :
    v.Parsed nestingLimit := by
  unfold Value.parse? at h
  split at h
  · next hread =>
    split at h
    · cases h
      exact parsed_of_readValue hread
    · cases h
  · cases h

end DeclScribe.Json
