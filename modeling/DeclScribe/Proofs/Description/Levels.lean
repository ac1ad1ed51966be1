import DeclScribe.Description.Json
import DeclScribe.Proofs.Json.Nesting

/-!
The levels of a description: itself and what encloses it, outermost last. What is asked of a
description at every level, and how deep its JSON form nests, is read off them.
-/

namespace DeclScribe.Description

open Json

def levels (d : Description) : List Description :=
  d :: match d with
    | lambda e .. => e.levels
    | method .. | constructor .. => []

theorem mem_levels_self (d : Description) : d ∈ d.levels := by
  cases d <;> exact List.mem_cons_self

theorem levels_lambda (e : Description) (t : Option String) (ps : Parameters) (o : Nat) :
    (lambda e t ps o).levels = lambda e t ps o :: e.levels := rfl

theorem isWellFormed_iff (d : Description) :
    d.isWellFormed = true ↔
      ∀ e ∈ d.levels, e.parameters.names.length = e.parameters.types.length := by
  induction d with
  | method => simp [isWellFormed, levels, Parameters.isPaired, parameters]
  | constructor => simp [isWellFormed, levels, Parameters.isPaired, parameters]
  | lambda e t ps o ih =>
    rw [isWellFormed, Bool.and_eq_true, ih, levels_lambda, List.forall_mem_cons]
    simp [Parameters.isPaired, parameters]

/-- Offsets count the bytes of a file, so they fit a word at every level. -/
def Addressable (d : Description) : Prop := ∀ e ∈ d.levels, e.offset < wordLimit

theorem addressable_lambda_iff {e : Description} {t : Option String} {ps : Parameters} {o : Nat} :
    (lambda e t ps o).Addressable ↔ o < wordLimit ∧ e.Addressable := by
  rw [Addressable, levels_lambda, List.forall_mem_cons]
  rfl

/-! ### The JSON form -/

theorem depth_texts (xs : List String) : (Value.texts xs).depth = 1 := by
  have h : depthOfItems (xs.map Value.string) = 0 := by
    refine Nat.le_zero.mp (depthOfItems_le_iff.mpr fun v hv => ?_)
    obtain ⟨s, -, rfl⟩ := List.mem_map.mp hv
    exact Nat.le_refl 0
  rw [Value.texts, Value.depth, h]

theorem depth_text? (s : Option String) : (Value.text? s).depth = 0 := by
  cases s <;> rfl

theorem depth_owner (c : Option ClassDescription) :
    (Value.ofOption ClassDescription.toJson c).depth = if c.isSome then 2 else 0 := by
  cases c with
  | none => rfl
  | some c =>
    simp [Value.ofOption, ClassDescription.toJson, Value.depth, depthOfMembers, depth_texts,
      depth_text?]

/-- Each level is an object, and the innermost one holds arrays, perhaps within a class. -/
theorem depth_toJson (d : Description) :
    d.toJson.depth = d.levels.length + if d.owner.isSome then 2 else 1 := by
  induction d with
  | method c as n t ps o s =>
    simp only [toJson, Value.depth, depthOfMembers, depth_texts, depth_text?, depth_owner,
      Value.nat, levels, owner, List.length_singleton]
    cases c <;> rfl
  | constructor c as ps o =>
    simp only [toJson, Value.depth, depthOfMembers, depth_texts, depth_owner, Value.nat, levels,
      owner, List.length_singleton]
    cases c <;> rfl
  | lambda e t ps o ih =>
    -- what encloses the lambda nests deeper than the arrays of its parameters
    have hpos : 0 < e.levels.length := List.length_pos_of_mem e.mem_levels_self
    have howner : (lambda e t ps o).owner = e.owner := rfl
    rw [howner, levels_lambda, List.length_cons]
    simp only [toJson, Value.depth, depthOfMembers, depth_texts, depth_text?, Value.nat, ih]
    omega

theorem allNumbers_texts {p : Number → Prop} (xs : List String) :
    (Value.texts xs).AllNumbers p := by
  refine .array fun v hv => ?_
  obtain ⟨s, -, rfl⟩ := List.mem_map.mp hv
  exact .string s

theorem allNumbers_text? {p : Number → Prop} (s : Option String) :
    (Value.text? s).AllNumbers p := by
  cases s with
  | none => exact .null
  | some s => exact .string s

theorem allNumbers_owner {p : Number → Prop} (c : Option ClassDescription) :
    (Value.ofOption ClassDescription.toJson c).AllNumbers p := by
  cases c with
  | none => exact .null
  | some c =>
    refine .object fun m hm => ?_
    simp only [List.mem_cons, List.not_mem_nil, or_false] at hm
    rcases hm with rfl | rfl
    · exact allNumbers_text? c.qualifiedName
    · exact allNumbers_texts c.attributes

/-- The numbers of the JSON form are the offsets of the levels. -/
theorem allNumbers_toJson {p : Number → Prop} {d : Description}
    (hd : ∀ e ∈ d.levels, p (.natural e.offset)) : d.toJson.AllNumbers p := by
  induction d with
  | method c as n t ps o s =>
    have ho : p (.natural o) := hd _ (mem_levels_self _)
    refine .object ?_
    simp only [List.forall_mem_cons]
    exact ⟨.string _, allNumbers_owner c, allNumbers_texts as, .string n, allNumbers_text? t,
      allNumbers_texts ps.names, allNumbers_texts ps.types, .number ho, .string s,
      List.forall_mem_nil _⟩
  | constructor c as ps o =>
    have ho : p (.natural o) := hd _ (mem_levels_self _)
    refine .object ?_
    simp only [List.forall_mem_cons]
    exact ⟨.string _, allNumbers_owner c, allNumbers_texts as, allNumbers_texts ps.names,
      allNumbers_texts ps.types, .number ho, List.forall_mem_nil _⟩
  | lambda e t ps o ih =>
    obtain ⟨ho, he⟩ := List.forall_mem_cons.mp hd
    refine .object ?_
    simp only [List.forall_mem_cons]
    exact ⟨.string _, ih he, allNumbers_text? t, allNumbers_texts ps.names,
      allNumbers_texts ps.types, .number ho, List.forall_mem_nil _⟩

theorem isWord_of_addressable {d : Description} (hd : d.Addressable) :
    d.toJson.AllNumbers Number.IsWord :=
  allNumbers_toJson fun e he => ⟨e.offset, rfl, hd e he⟩

end DeclScribe.Description
