import DeclScribe.Json.Record
import DeclScribe.Proofs.Json.Nesting

/-!
The fields of a record are parts of it, so they nest less deep and have no other numbers.
-/

namespace DeclScribe.Json.Value

/-- A value stands directly within another. -/
inductive IsPart (v : Value) : Value → Prop
  | item {items : List Value} (h : v ∈ items) : IsPart v (array items)
  | member {members : List (String × Value)} {name : String} (h : (name, v) ∈ members) :
    IsPart v (object members)

theorem IsPart.depth_lt {v record : Value} (h : v.IsPart record) : v.depth < record.depth := by
  cases h with
  | item h => exact depth_lt_of_mem_items h
  | member h => exact depth_lt_of_mem_members h

theorem IsPart.allNumbers {p : Number → Prop} {v record : Value} (h : v.IsPart record)
    (hrecord : record.AllNumbers p) : v.AllNumbers p := by
  cases h with
  | item h =>
    cases hrecord with
    | array hitems => exact hitems v h
  | member h =>
    cases hrecord with
    | object hmembers => exact hmembers _ h

theorem isPart_of_fields? {names : List String} {record v : Value} {fields : List (Option Value)}
    (h : record.fields? names = some fields) (hv : some v ∈ fields) : v.IsPart record := by
  unfold fields? at h
  split at h
  · obtain ⟨k, hk⟩ := mem_of_memberFields? h hv
    exact .member hk
  · split at h
    · cases h
      exact .item (by simpa using hv)
    · cases h
  · cases h

/-- The record that holds the fields of a tagged record has nothing that the tagged one has not. -/
theorem of_tagged? {name : String} {v tag record : Value}
    (h : v.tagged? name = some (tag, record)) :
    record.depth ≤ v.depth ∧ ∀ p : Number → Prop, v.AllNumbers p → record.AllNumbers p := by
  unfold tagged? at h
  split at h
  · split at h
    · cases h
      exact ⟨Nat.le_refl _, fun _ hv => hv⟩
    · cases h
  · next items =>
    cases h
    refine ⟨?_, fun p hv => ?_⟩
    · simp only [depth, depthOfItems]
      omega
    · cases hv with
      | array hitems => exact .array fun w hw => hitems w (List.mem_cons_of_mem _ hw)
  · cases h

theorem depth_pos_of_asTexts? {v : Value} {xs : List String} (h : v.asTexts? = some xs) :
    0 < v.depth := by
  obtain ⟨items, hitems, -⟩ := Option.bind_eq_some_iff.mp h
  unfold asArray? at hitems
  split at hitems
  · rw [depth]
    exact Nat.succ_pos _
  · cases hitems

end DeclScribe.Json.Value
