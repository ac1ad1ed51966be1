import DeclScribe.Description.Record
import DeclScribe.Proofs.Description.Decoding
import DeclScribe.Proofs.Json.Parsed
import DeclScribe.Proofs.Json.RoundTrip

/-!
Written descriptions. Rendering is undone by reading exactly where the form nests within the limit
and names and types pair up, and whatever text a description was read from, its rendered form is
one that is read again.
-/

namespace DeclScribe.Description

open Json

theorem validate_of_paired {d : Description}
    (h : ∀ e ∈ d.levels, e.parameters.names.length = e.parameters.types.length) :
    d.validate = .ok () := by
  rw [validate, if_pos ((isWellFormed_iff d).mpr h)]

theorem validate_of_unpaired {d : Description}
    (h : ∃ e ∈ d.levels, e.parameters.names.length ≠ e.parameters.types.length) :
    d.validate =
      .error (.unpaired d.offset d.parameters.names.length d.parameters.types.length) := by
  obtain ⟨e, he, hne⟩ := h
  rw [validate, if_neg fun hw => hne ((isWellFormed_iff d).mp hw e he)]

theorem read_of_ofJson? {text : String} {v : Value} {d : Description}
    (hparse : Value.parse? text = some v) (hdecode : ofJson? false v = some d) :
    read text = d.validate.map fun _ => d := by
  simp only [read, hparse, Option.bind_some, hdecode]
  cases d.validate <;> rfl

/-- A text that reads to a description spells a value that decodes to it and is well formed. -/
theorem exists_of_read {text : String} {d : Description} (h : read text = .ok d) :
    ∃ v, Value.parse? text = some v ∧ ofJson? false v = some d ∧
      ∀ e ∈ d.levels, e.parameters.names.length = e.parameters.types.length := by
  cases hdecode : (Value.parse? text).bind (ofJson? false) with
  | none =>
    simp only [read, hdecode] at h
    cases h
  | some c =>
    obtain ⟨v, hv, hc⟩ := Option.bind_eq_some_iff.mp hdecode
    rw [read_of_ofJson? hv hc] at h
    by_cases hw : c.isWellFormed = true
    · rw [validate, if_pos hw] at h
      cases h
      exact ⟨v, hv, hc, (isWellFormed_iff c).mp hw⟩
    · rw [validate, if_neg hw] at h
      cases h

/-- Reading a written description, in either layout. -/
theorem read_print {layout : Layout} (hlayout : layout.IsBlank) {d : Description}
    (hd : d.Addressable) :
    read (String.ofList (print layout 0 d.toJson)) =
      if d.toJson.depth ≤ nestingLimit then d.validate.map fun _ => d else .error .malformed := by
  have hparse := Value.parse?_print hlayout (isWord_of_addressable hd)
  by_cases hdepth : d.toJson.depth ≤ nestingLimit
  · rw [if_pos hdepth] at hparse ⊢
    exact read_of_ofJson? hparse (ofJson?_toJson d false)
  · rw [if_neg hdepth] at hparse ⊢
    simp only [read, hparse, Option.bind_none]

/-- A rendered description reads back as itself where names and types pair up at all levels, and
as the error of its outermost level where they do not; one that nests too deep is malformed. -/
theorem read_render (d : Description) (hd : d.Addressable) :
    (d.toJson.depth ≤ 127 →
      (∀ e ∈ d.levels, e.parameters.names.length = e.parameters.types.length) →
        read d.render = .ok d) ∧
      (d.toJson.depth ≤ 127 →
        (∃ e ∈ d.levels, e.parameters.names.length ≠ e.parameters.types.length) →
          read d.render =
            .error (.unpaired d.offset d.parameters.names.length d.parameters.types.length)) ∧
      (127 < d.toJson.depth → read d.render = .error .malformed) := by
  have hread : read d.render =
      if d.toJson.depth ≤ 127 then d.validate.map fun _ => d else .error .malformed :=
    read_print Layout.isBlank_indented hd
  refine ⟨fun hdepth hpaired => ?_, fun hdepth hunpaired => ?_, fun hdepth => ?_⟩
  · rw [hread, if_pos hdepth, validate_of_paired hpaired]
    rfl
  · rw [hread, if_pos hdepth, validate_of_unpaired hunpaired]
    rfl
  · rw [hread, if_neg (Nat.not_le.mpr hdepth)]

/-- Lambdas within one another, around a method, at the last offset there is. -/
def nestedLambdas (parameters : Parameters) : Nat → Description
  | 0 => method (some ⟨some "a.B", ["public"]⟩) [] "m\"\\" none ⟨["é\x01"], ["int"]⟩ 0 "()\n\x7f"
  | n + 1 => lambda (nestedLambdas parameters n) none parameters (wordLimit - 1)

theorem addressable_nestedLambdas (ps : Parameters) (n : Nat) :
    (nestedLambdas ps n).Addressable := by
  induction n with
  | zero => exact List.forall_mem_singleton.mpr (show 0 < wordLimit by decide)
  | succ n ih => exact addressable_lambda_iff.mpr ⟨by decide, ih⟩

theorem paired_nestedLambdas {ps : Parameters} (hps : ps.names.length = ps.types.length)
    (n : Nat) :
    ∀ e ∈ (nestedLambdas ps n).levels, e.parameters.names.length = e.parameters.types.length := by
  induction n with
  | zero => exact List.forall_mem_singleton.mpr rfl
  | succ n ih => exact List.forall_mem_cons.mpr ⟨hps, ih⟩

theorem depth_nestedLambdas (ps : Parameters) (n : Nat) :
    (nestedLambdas ps n).toJson.depth = n + 3 := by
  have howner : (nestedLambdas ps n).owner.isSome = true := by
    induction n with
    | zero => rfl
    | succ n ih => exact ih
  have hlevels : (nestedLambdas ps n).levels.length = n + 1 := by
    induction n with
    | zero => rfl
    | succ n ih => exact congrArg Nat.succ (ih howner)
  rw [depth_toJson, hlevels, if_pos howner]

theorem read_render_nestedLambdas :
    (nestedLambdas ⟨[], []⟩ 125).Addressable ∧
      read (nestedLambdas ⟨[], []⟩ 124).render = .ok (nestedLambdas ⟨[], []⟩ 124) ∧
      read (nestedLambdas ⟨["x"], []⟩ 124).render = .error (.unpaired (wordLimit - 1) 1 0) ∧
      read (nestedLambdas ⟨[], []⟩ 125).render = .error .malformed := by
  have haddr := addressable_nestedLambdas
  have hdepth := depth_nestedLambdas
  refine ⟨haddr _ _, (read_render _ (haddr _ _)).1 ?_ (paired_nestedLambdas rfl _),
    (read_render _ (haddr _ _)).2.1 ?_ ⟨_, mem_levels_self _, by decide⟩,
    (read_render _ (haddr _ _)).2.2 ?_⟩
  · exact Nat.le_of_eq (hdepth _ 124)
  · exact Nat.le_of_eq (hdepth _ 124)
  · exact Nat.le_of_eq (hdepth _ 125).symm

/-- Whatever text a description was read from, it pairs names and types at every level, and its
rendered form nests no deeper than the text did, reads back as the description, and is rendered
once more as it is. -/
theorem read_render_of_read {text : String} {d : Description} (h : read text = .ok d) :
    (∀ e ∈ d.levels, e.parameters.names.length = e.parameters.types.length) ∧
      (∃ v, Value.parse? text = some v ∧ d.toJson.depth ≤ v.depth ∧ v.depth ≤ 127) ∧
      read d.render = .ok d ∧ (read d.render).map render = .ok d.render := by
  obtain ⟨v, hparse, hdecode, hpaired⟩ := exists_of_read h
  have hparsed := Value.parsed_of_parse? hparse
  have hcovers := covers_of_ofJson? hdecode
  -- the text kept to the limit of the reader, and the rendered form nests no deeper
  have hback : read d.render = .ok d := by
    have hread := read_print Layout.isBlank_indented (hcovers.addressable hparsed.inRange)
    rw [if_pos (Nat.le_trans hcovers.depth_le hparsed.depth_le), validate_of_paired hpaired]
      at hread
    exact hread
  refine ⟨hpaired, ⟨v, hparse, hcovers.depth_le, hparsed.depth_le⟩, hback, ?_⟩
  rw [hback]
  rfl

/-- A lambda in a constructor, spelled by arrays, with the place of the inner kind for its name. -/
def arraysText : String :=
  "[ \"lambda\", [1, null, [], [], [], 3], null, [\"a\"], [\"\\u0069nt\"], 5 ]\n"

def arraysValue : Value :=
  .array [.string "lambda",
    .array [.nat 1, .null, .array [], .array [], .array [], .nat 3],
    .null, .texts ["a"], .texts ["int"], .nat 5]

def arraysRecord : Description :=
  lambda (constructor none [] ⟨[], []⟩ 3) none ⟨["a"], ["int"]⟩ 5

theorem read_render_of_read_arraysText :
    read arraysText = .ok arraysRecord ∧ read arraysRecord.render = .ok arraysRecord := by
  have hparse : Value.parse? arraysText = some arraysValue := rfl
  have hdecode : ofJson? false arraysValue = some arraysRecord := by
    rw [ofJson?_of_lambda rfl rfl rfl, ofJson?_of_constructor rfl rfl]
    rfl
  have hread : read arraysText = .ok arraysRecord := by
    rw [read_of_ofJson? hparse hdecode]
    rfl
  exact ⟨hread, (read_render_of_read hread).2.2.1⟩

end DeclScribe.Description
