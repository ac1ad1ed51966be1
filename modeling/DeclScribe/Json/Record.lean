import DeclScribe.Json.Value

/-!
Records in JSON. A record is an object that gives its fields by name, or an array that gives all
of them in order. A tagged record also says which kind it is of.
-/

namespace DeclScribe.Json.Value

/-- The value of a field among the members of an object: absent, or given once. A field that is
given twice makes the object invalid. -/
def field? (members : List (String × Value)) (name : String) : Option (Option Value) :=
  match members.filter (·.1 == name) with
  | [] => some none
  | [(_, v)] => some (some v)
  | _ => none

def memberFields? (members : List (String × Value)) :
    List String → Option (List (Option Value))
  | [] => some []
  | name :: names =>
    match field? members name, memberFields? members names with
    | some v, some vs => some (v :: vs)
    | _, _ => none

/-- The fields of a record in the order of `names`, `none` for one that is absent. Members of an
object with other names are ignored. -/
def fields? (names : List String) : Value → Option (List (Option Value))
  | .object members => memberFields? members names
  | .array items => if items.length = names.length then some (items.map some) else none
  | _ => none

/-- The tag of a tagged record and the record that holds its fields. An object has its tag as the
member `name`, an array as its first item. -/
def tagged? (name : String) : Value → Option (Value × Value)
  | v@(.object members) =>
    match field? members name with
    | some (some tag) => some (tag, v)
    | _ => none
  | .array (tag :: items) => some (tag, .array items)
  | _ => none

theorem mem_of_field? {members : List (String × Value)} {name : String} {v : Value}
    (h : field? members name = some (some v)) : ∃ k, (k, v) ∈ members := by
  unfold field? at h
  split at h
  · simp at h
  · rename_i k w heq
    have hw : w = v := by simpa using h
    have hmem : (k, w) ∈ members.filter (·.1 == name) := by simp [heq]
    exact ⟨k, hw ▸ (List.mem_filter.mp hmem).1⟩
  · simp at h

theorem mem_of_memberFields? {members : List (String × Value)} {names : List String} {v : Value}
    {fields : List (Option Value)} (h : memberFields? members names = some fields)
    (hv : some v ∈ fields) : ∃ k, (k, v) ∈ members := by
  induction names generalizing fields with
  | nil =>
    simp only [memberFields?, Option.some.injEq] at h
    simp [← h] at hv
  | cons name names ih =>
    unfold memberFields? at h
    split at h
    · rename_i w ws hw hws
      simp only [Option.some.injEq] at h
      rw [← h, List.mem_cons] at hv
      rcases hv with hv | hv
      · exact mem_of_field? (hv ▸ hw)
      · exact ih hws hv
    · simp at h

theorem sizeOf_lt_of_mem_members {members : List (String × Value)} {k : String} {v : Value}
    (h : (k, v) ∈ members) : sizeOf v < sizeOf (Value.object members) := by
  have := List.sizeOf_lt_of_mem h
  simp only [Prod.mk.sizeOf_spec] at this
  simp only [Value.object.sizeOf_spec]
  omega

theorem sizeOf_lt_of_mem_items {items : List Value} {v : Value} (h : v ∈ items) :
    sizeOf v < sizeOf (Value.array items) := by
  have := List.sizeOf_lt_of_mem h
  simp only [Value.array.sizeOf_spec]
  omega

/-- A field is smaller than its record. -/
theorem sizeOf_lt_of_fields? {names : List String} {record v : Value}
    {fields : List (Option Value)} (h : record.fields? names = some fields)
    (hv : some v ∈ fields) : sizeOf v < sizeOf record := by
  unfold fields? at h
  split at h
  · rename_i members
    obtain ⟨k, hk⟩ := mem_of_memberFields? h hv
    exact sizeOf_lt_of_mem_members hk
  · split at h
    · rw [← Option.some.inj h] at hv
      exact sizeOf_lt_of_mem_items (by simpa using hv)
    · simp at h
  · simp at h

theorem sizeOf_le_of_tagged? {name : String} {v tag record : Value}
    (h : v.tagged? name = some (tag, record)) : sizeOf record ≤ sizeOf v := by
  unfold tagged? at h
  split at h
  · split at h
    · simp only [Option.some.injEq, Prod.mk.injEq] at h
      exact h.2 ▸ Nat.le_refl _
    · simp at h
  · simp only [Option.some.injEq, Prod.mk.injEq] at h
    rw [← h.2]
    simp only [Value.array.sizeOf_spec, List.cons.sizeOf_spec]
    omega
  · simp at h

end DeclScribe.Json.Value
