import DeclScribe.Json.Number

/-!
How deep values nest, and what is said of all numbers in a value.
-/

namespace DeclScribe.Json

mutual

/-- How many arrays and objects stand within one another at the deepest place of a value. -/
def Value.depth : Value → Nat
  | .array items => depthOfItems items + 1
  | .object members => depthOfMembers members + 1
  | .null | .bool _ | .number _ | .string _ => 0

def depthOfItems : List Value → Nat
  | [] => 0
  | v :: rest => max v.depth (depthOfItems rest)

def depthOfMembers : List (String × Value) → Nat
  | [] => 0
  | (_, v) :: rest => max v.depth (depthOfMembers rest)

end

theorem depthOfItems_le_iff {items : List Value} {n : Nat} :
    depthOfItems items ≤ n ↔ ∀ v ∈ items, v.depth ≤ n := by
  induction items with
  | nil => simp [depthOfItems]
  | cons v rest ih => rw [depthOfItems, Nat.max_le, ih, List.forall_mem_cons]

theorem depthOfMembers_le_iff {members : List (String × Value)} {n : Nat} :
    depthOfMembers members ≤ n ↔ ∀ m ∈ members, m.2.depth ≤ n := by
  induction members with
  | nil => simp [depthOfMembers]
  | cons m rest ih =>
    obtain ⟨name, v⟩ := m
    rw [depthOfMembers, Nat.max_le, ih, List.forall_mem_cons]

namespace Value

theorem depth_array_le_iff {items : List Value} {n : Nat} :
    (array items).depth ≤ n + 1 ↔ ∀ v ∈ items, v.depth ≤ n := by
  rw [depth, Nat.add_le_add_iff_right, depthOfItems_le_iff]

theorem depth_object_le_iff {members : List (String × Value)} {n : Nat} :
    (object members).depth ≤ n + 1 ↔ ∀ m ∈ members, m.2.depth ≤ n := by
  rw [depth, Nat.add_le_add_iff_right, depthOfMembers_le_iff]

theorem depth_lt_of_mem_items {items : List Value} {v : Value} (hv : v ∈ items) :
    v.depth < (array items).depth := by
  have h : v.depth ≤ depthOfItems items := depthOfItems_le_iff.mp (Nat.le_refl _) v hv
  rw [depth]
  omega

theorem depth_lt_of_mem_members {members : List (String × Value)} {name : String} {v : Value}
    (hv : (name, v) ∈ members) : v.depth < (object members).depth := by
  have h : v.depth ≤ depthOfMembers members :=
    depthOfMembers_le_iff.mp (Nat.le_refl _) (name, v) hv
  rw [depth]
  omega

/-- Every number in a value, at any depth, has the property. -/
inductive AllNumbers (p : Number → Prop) : Value → Prop
  | null : AllNumbers p null
  | bool (b : Bool) : AllNumbers p (bool b)
  | number {x : Number} (h : p x) : AllNumbers p (number x)
  | string (s : String) : AllNumbers p (string s)
  | array {items : List Value} (h : ∀ v ∈ items, AllNumbers p v) : AllNumbers p (array items)
  | object {members : List (String × Value)} (h : ∀ m ∈ members, AllNumbers p m.2) :
    AllNumbers p (object members)

end Value

/-- A natural that fits a word. -/
def Number.IsWord (x : Number) : Prop := ∃ n, x = .natural n ∧ n < wordLimit

/-- A number of which it is known that it fits a word if it is a natural. -/
def Number.InRange (x : Number) : Prop := ∀ n, x = .natural n → n < wordLimit

end DeclScribe.Json
