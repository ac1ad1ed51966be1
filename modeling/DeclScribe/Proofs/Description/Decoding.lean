import DeclScribe.Proofs.Description.Levels
import DeclScribe.Proofs.Json.Fields

/-!
Decoding descriptions. The JSON form of a description decodes to it, and what decodes to a
description nests at least as deep as the form of that description does.
-/

namespace DeclScribe

open Json

/-! ### What encoding writes -/

theorem Json.Value.asTexts?_texts (xs : List String) : (Value.texts xs).asTexts? = some xs := by
  change (xs.map Value.string).mapM Value.asText? = some xs
  induction xs with
  | nil => rfl
  | cons x xs ih =>
    rw [List.map_cons, List.mapM_cons, ih]
    rfl

theorem Json.Value.asOptionalText?_text? (s : Option String) :
    Value.asOptionalText? (some (Value.text? s)) = some s := by
  cases s <;> rfl

theorem ClassDescription.ofJson?_toJson (c : ClassDescription) :
    ClassDescription.ofJson? c.toJson = some c := by
  have hfields : c.toJson.fields? ["qualified_name", "attributes"] =
      some [some (.text? c.qualifiedName), some (.texts c.attributes)] := rfl
  simp only [ClassDescription.ofJson?, hfields, Value.asOptionalText?_text?,
    Value.asTexts?_texts]
  rfl

theorem ClassDescription.ofField?_ofOption (c : Option ClassDescription) :
    ClassDescription.ofField? (some (.ofOption ClassDescription.toJson c)) = some c := by
  cases c with
  | none => rfl
  | some c =>
    change (ClassDescription.ofJson? c.toJson).map some = _
    rw [ClassDescription.ofJson?_toJson]
    rfl

theorem Parameters.ofFields?_texts (ps : Parameters) :
    Parameters.ofFields? (.texts ps.names) (.texts ps.types) = some ps := by
  simp only [Parameters.ofFields?, Value.asTexts?_texts]
  rfl

namespace Description

section Kinds

variable {isEnclosing : Bool} {v tag record : Value}

theorem ofJson?_of_method (htag : v.tagged? "kind" = some (tag, record))
    (hkind : Kind.ofTag? isEnclosing tag = some .method) :
    ofJson? isEnclosing v = (record.fields? Kind.method.fields).bind methodOfFields? := by
  rw [ofJson?]
  split
  · next h => cases htag.symm.trans h
  · next h =>
    cases htag.symm.trans h
    simp only [hkind]

theorem ofJson?_of_constructor (htag : v.tagged? "kind" = some (tag, record))
    (hkind : Kind.ofTag? isEnclosing tag = some .constructor) :
    ofJson? isEnclosing v =
      (record.fields? Kind.constructor.fields).bind constructorOfFields? := by
  rw [ofJson?]
  split
  · next h => cases htag.symm.trans h
  · next h =>
    cases htag.symm.trans h
    simp only [hkind]

theorem ofJson?_of_lambda (htag : v.tagged? "kind" = some (tag, record))
    (hkind : Kind.ofTag? isEnclosing tag = some .lambda)
    {enclosing argNames argTypes offset : Value} {returnType : Option Value}
    (hfields : record.fields? Kind.lambda.fields =
      some [some enclosing, returnType, some argNames, some argTypes, some offset]) :
    ofJson? isEnclosing v = do
      return lambda (← ofJson? true enclosing) (← Value.asOptionalText? returnType)
        (← Parameters.ofFields? argNames argTypes) (← offset.asNat?) := by
  rw [ofJson?]
  split
  · next h => cases htag.symm.trans h
  · next h =>
    cases htag.symm.trans h
    simp only [hkind]
    split
    · next h =>
      cases hfields.symm.trans h
      rfl
    · next h => exact absurd hfields (h _ _ _ _ _)

/-- A value that decodes has the fields of one of the three kinds. -/
theorem ofJson?_cases {d : Description} (h : ofJson? isEnclosing v = some d) :
    ∃ tag record, v.tagged? "kind" = some (tag, record) ∧
      ((record.fields? Kind.method.fields).bind methodOfFields? = some d ∨
        (record.fields? Kind.constructor.fields).bind constructorOfFields? = some d ∨
        ∃ enclosing returnType argNames argTypes offset e t ps o,
          record.fields? Kind.lambda.fields =
            some [some enclosing, returnType, some argNames, some argTypes, some offset] ∧
          ofJson? true enclosing = some e ∧ Parameters.ofFields? argNames argTypes = some ps ∧
          offset.asNat? = some o ∧ d = lambda e t ps o) := by
  rw [ofJson?] at h
  split at h
  · cases h
  · next tag record htag =>
    refine ⟨tag, record, htag, ?_⟩
    split at h
    · cases h
    · exact Or.inl h
    · exact Or.inr (Or.inl h)
    · split at h
      · next hfields =>
        simp only [Option.bind_eq_bind, Option.bind_eq_some_iff] at h
        obtain ⟨e, he, t, -, ps, hps, o, ho, h⟩ := h
        cases h
        exact Or.inr (Or.inr ⟨_, _, _, _, _, e, t, ps, o, hfields, he, hps, ho, rfl⟩)
      · cases h

end Kinds

def kindName : Description → String
  | method .. => "method"
  | constructor .. => "constructor"
  | lambda .. => "lambda"

theorem tagged?_toJson (d : Description) :
    d.toJson.tagged? "kind" = some (.string d.kindName, d.toJson) := by
  cases d <;> rfl

/-- Decoding takes back what encoding writes, of a description by itself or within another. -/
theorem ofJson?_toJson (d : Description) (isEnclosing : Bool) :
    ofJson? isEnclosing d.toJson = some d := by
  induction d generalizing isEnclosing with
  | method c as n t ps o s =>
    have hfields : (method c as n t ps o s).toJson.fields? Kind.method.fields =
        some [some (.ofOption ClassDescription.toJson c), some (.texts as), some (.string n),
          some (.text? t), some (.texts ps.names), some (.texts ps.types), some (.nat o),
          some (.string s)] := rfl
    rw [ofJson?_of_method (tagged?_toJson _) rfl, hfields]
    simp only [Option.bind_some, methodOfFields?, ClassDescription.ofField?_ofOption,
      Value.asTexts?_texts, Value.asOptionalText?_text?, Parameters.ofFields?_texts]
    rfl
  | constructor c as ps o =>
    have hfields : (constructor c as ps o).toJson.fields? Kind.constructor.fields =
        some [some (.ofOption ClassDescription.toJson c), some (.texts as),
          some (.texts ps.names), some (.texts ps.types), some (.nat o)] := rfl
    rw [ofJson?_of_constructor (tagged?_toJson _) rfl, hfields]
    simp only [Option.bind_some, constructorOfFields?, ClassDescription.ofField?_ofOption,
      Value.asTexts?_texts, Parameters.ofFields?_texts]
    rfl
  | lambda e t ps o ih =>
    have hfields : (lambda e t ps o).toJson.fields? Kind.lambda.fields =
        some [some e.toJson, some (.text? t), some (.texts ps.names), some (.texts ps.types),
          some (.nat o)] := rfl
    rw [ofJson?_of_lambda (tagged?_toJson _) rfl hfields, ih true]
    simp only [Value.asOptionalText?_text?, Parameters.ofFields?_texts]
    rfl

/-! ### What decoding takes -/

/-- The fields of a record that is no lambda hold an array, a class where the description has one,
and the offset. -/
structure Carry (fields : List (Option Value)) (d : Description) : Prop where
  levels : d.levels = [d]
  array : ∃ v, some v ∈ fields ∧ 1 ≤ v.depth
  owner : d.owner.isSome → ∃ v, some v ∈ fields ∧ 2 ≤ v.depth
  offset : ∃ v, some v ∈ fields ∧ v.asNat? = some d.offset

theorem two_le_depth_of_ofJson? {v : Value} {c : ClassDescription}
    (h : ClassDescription.ofJson? v = some c) : 2 ≤ v.depth := by
  unfold ClassDescription.ofJson? at h
  split at h
  · next name attributes hfields =>
    simp only [Option.bind_eq_bind, Option.bind_eq_some_iff] at h
    obtain ⟨_, -, as, has, -⟩ := h
    have hpart : attributes.IsPart v := Value.isPart_of_fields? hfields (by simp)
    have hlt := hpart.depth_lt
    have hpos := Value.depth_pos_of_asTexts? has
    omega
  · cases h

theorem exists_of_ofField? {field : Option Value} {c : Option ClassDescription}
    (h : ClassDescription.ofField? field = some c) (hc : c.isSome) :
    ∃ v, field = some v ∧ 2 ≤ v.depth := by
  unfold ClassDescription.ofField? at h
  split at h
  · cases h
    cases hc
  · cases h
    cases hc
  · next v hv =>
    obtain ⟨c, hc, -⟩ := Option.map_eq_some_iff.mp h
    exact ⟨v, rfl, two_le_depth_of_ofJson? hc⟩

theorem carry_of_mem {fields : List (Option Value)} {d : Description} {owner : Option Value}
    {attributes offset : Value} {as : List String} (hlevels : d.levels = [d])
    (hfields : owner ∈ fields ∧ some attributes ∈ fields ∧ some offset ∈ fields)
    (howner : ClassDescription.ofField? owner = some d.owner)
    (hattributes : attributes.asTexts? = some as) (hoffset : offset.asNat? = some d.offset) :
    Carry fields d := by
  refine ⟨hlevels, ⟨attributes, hfields.2.1, Value.depth_pos_of_asTexts? hattributes⟩,
    fun hsome => ?_, ⟨offset, hfields.2.2, hoffset⟩⟩
  obtain ⟨v, rfl, hv⟩ := exists_of_ofField? howner hsome
  exact ⟨v, hfields.1, hv⟩

theorem carry_of_methodOfFields? {fields : List (Option Value)} {d : Description}
    (h : methodOfFields? fields = some d) : Carry fields d := by
  unfold methodOfFields? at h
  split at h
  · next owner attributes name returnType argNames argTypes offset text =>
    simp only [Option.bind_eq_bind, Option.bind_eq_some_iff] at h
    obtain ⟨c, hc, as, has, n, -, t, -, ps, -, o, ho, s, -, h⟩ := h
    cases h
    exact carry_of_mem rfl (by simp) hc has ho
  · cases h

theorem carry_of_constructorOfFields? {fields : List (Option Value)} {d : Description}
    (h : constructorOfFields? fields = some d) : Carry fields d := by
  unfold constructorOfFields? at h
  split at h
  · next owner attributes argNames argTypes offset =>
    simp only [Option.bind_eq_bind, Option.bind_eq_some_iff] at h
    obtain ⟨c, hc, as, has, ps, -, o, ho, h⟩ := h
    cases h
    exact carry_of_mem rfl (by simp) hc has ho
  · cases h

theorem lt_wordLimit_of_asNat? {v : Value} {n : Nat} (h : v.asNat? = some n)
    (hv : v.AllNumbers Number.InRange) : n < wordLimit := by
  unfold Value.asNat? at h
  split at h
  · cases h
    cases hv with
    | number hx => exact hx n rfl
  · cases h

/-- A description needs no deeper form than the value has, and its offsets are numbers of the
value. -/
structure Covers (v : Value) (d : Description) : Prop where
  depth_le : d.toJson.depth ≤ v.depth
  addressable : v.AllNumbers Number.InRange → d.Addressable

theorem Carry.covers {names : List String} {record : Value} {fields : List (Option Value)}
    {d : Description} (h : Carry fields d) (hfields : record.fields? names = some fields) :
    Covers record d := by
  have hpart : ∀ v, some v ∈ fields → v.IsPart record := fun _ hv =>
    Value.isPart_of_fields? hfields hv
  refine ⟨?_, fun hrecord => ?_⟩
  · rw [depth_toJson, h.levels, List.length_singleton]
    split
    · next howner =>
      obtain ⟨v, hv, hdepth⟩ := h.owner howner
      have hlt := (hpart v hv).depth_lt
      omega
    · obtain ⟨v, hv, hdepth⟩ := h.array
      have hlt := (hpart v hv).depth_lt
      omega
  · obtain ⟨v, hv, hoffset⟩ := h.offset
    rw [Addressable, h.levels]
    exact List.forall_mem_singleton.mpr
      (lt_wordLimit_of_asNat? hoffset ((hpart v hv).allNumbers hrecord))

theorem Covers.of_tagged? {name : String} {v tag record : Value} {d : Description}
    (h : Covers record d) (htag : v.tagged? name = some (tag, record)) : Covers v d := by
  obtain ⟨hdepth, hnumbers⟩ := Value.of_tagged? htag
  exact ⟨Nat.le_trans h.depth_le hdepth, fun hv => h.addressable (hnumbers _ hv)⟩

theorem covers_lambda {names : List String} {record enclosing argNames argTypes offset : Value}
    {returnType : Option Value} {e : Description} {t : Option String} {ps : Parameters} {o : Nat}
    (hfields : record.fields? names =
      some [some enclosing, returnType, some argNames, some argTypes, some offset])
    (henclosing : Covers enclosing e) (ho : offset.asNat? = some o) :
    Covers record (lambda e t ps o) := by
  have hpart : enclosing.IsPart record := Value.isPart_of_fields? hfields (by simp)
  have hoffset : offset.IsPart record := Value.isPart_of_fields? hfields (by simp)
  refine ⟨?_, fun hrecord => addressable_lambda_iff.mpr ⟨?_, ?_⟩⟩
  · have hdepth : (lambda e t ps o).toJson.depth = e.toJson.depth + 1 := by
      rw [depth_toJson, depth_toJson, levels_lambda, List.length_cons]
      exact Nat.add_right_comm _ _ _
    have hle := henclosing.depth_le
    have hlt := hpart.depth_lt
    omega
  · exact lt_wordLimit_of_asNat? ho (hoffset.allNumbers hrecord)
  · exact henclosing.addressable (hpart.allNumbers hrecord)

theorem covers_of_enclosing {isEnclosing : Bool} {v : Value} {d : Description}
    (ih : ∀ e t ps o w, d = lambda e t ps o → ofJson? true w = some e → Covers w e)
    (h : ofJson? isEnclosing v = some d) : Covers v d := by
  obtain ⟨tag, record, htag, hmethod | hconstructor | hlambda⟩ := ofJson?_cases h
  · obtain ⟨fields, hfields, hd⟩ := Option.bind_eq_some_iff.mp hmethod
    exact ((carry_of_methodOfFields? hd).covers hfields).of_tagged? htag
  · obtain ⟨fields, hfields, hd⟩ := Option.bind_eq_some_iff.mp hconstructor
    exact ((carry_of_constructorOfFields? hd).covers hfields).of_tagged? htag
  · obtain ⟨enclosing, _, _, _, _, e, t, ps, o, hfields, he, -, ho, rfl⟩ := hlambda
    exact (covers_lambda hfields (ih e t ps o enclosing rfl he) ho).of_tagged? htag

/-- What decodes to a description nests at least as deep as the form that encoding gives it. -/
theorem covers_of_ofJson? {isEnclosing : Bool} {v : Value} {d : Description}
    (h : ofJson? isEnclosing v = some d) : Covers v d := by
  -- on the description: what encloses it may be spelled by any value, not only by its own form
  induction d generalizing isEnclosing v with
  | method => exact covers_of_enclosing (fun _ _ _ _ _ hd _ => nomatch hd) h
  | constructor => exact covers_of_enclosing (fun _ _ _ _ _ hd _ => nomatch hd) h
  | lambda e t ps o ih =>
    refine covers_of_enclosing (fun _ _ _ _ w hd he => ?_) h
    cases hd
    exact ih he

end Description

end DeclScribe
