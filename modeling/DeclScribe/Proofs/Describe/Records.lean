import DeclScribe.Project.Listing
import DeclScribe.Proofs.Caret.Lookup
import DeclScribe.Proofs.Describe.Enclosing
import DeclScribe.Proofs.Describe.Readable
import DeclScribe.Proofs.Node.OutlineTree

/-!
What a record says of its node. Names and types stand in the places of the parameters, the form of
the record is that of the node, and what is written of the record is read again. This holds for the
nodes of all front ends and on every way to a record.
-/

namespace DeclScribe

open SourceNode Descent Describe

/-- A name and a type in the place of each parameter. What is not known of a parameter is left
empty, so nothing moves to another place. -/
structure Parameters.AreOf {ν : Type} [SourceNode ν] (p : Parameters) (ns : List ν) : Prop where
  length_names : p.names.length = ns.length
  length_types : p.types.length = ns.length
  name_at : ∀ (i : Nat) (n : ν), ns[i]? = some n → p.names[i]? = some ((SourceNode.name n).getD "")
  type_at : ∀ (i : Nat) (n : ν), ns[i]? = some n → p.types[i]? = some ((typeText n).getD "")

/-- A record as it has to be for the node that it is of. -/
structure Description.IsRecordOf {ν : Type} [SourceNode ν] (d : Description) (n : ν) : Prop where
  valid : d.validate = .ok ()
  parameters : d.parameters.AreOf (SourceNode.parameters n)
  isConstructor_iff :
    d.isConstructor = true ↔ kind n = .method ∧ SourceNode.isConstructor n = true
  isLambda_iff : d.isLambda = true ↔ kind n = .lambda
  /-- A method or a constructor is one level, a lambda has one more for its method. -/
  levels_of_method : d.isLambda = false → d.levels = [d]
  levels_of_lambda : d.isLambda = true → ∃ m e, IsNearestMethod m n ∧ d.levels = [d, e] ∧
    d.enclosing = some e ∧ e.isLambda = false ∧
    (e.isConstructor = true ↔ SourceNode.isConstructor m = true) ∧
    e.parameters.AreOf (SourceNode.parameters m)
  reads_back : d.offset < Json.wordLimit → Description.read d.render = .ok d

namespace Describe

variable {ν : Type} [SourceNode ν] (settings : AttributeSettings)

theorem areOf_parameterPairs (ns : List ν) : (parameterPairs ns).AreOf ns where
  length_names := by simp [parameterPairs, Parameters.ofPairs]
  length_types := by simp [parameterPairs, Parameters.ofPairs]
  name_at := by
    intro i n hn
    simp [parameterPairs, Parameters.ofPairs, hn]
  type_at := by
    intro i n hn
    simp [parameterPairs, Parameters.ofPairs, hn]

theorem isConstructor_describeMethod (m : ν) (offset : Nat) :
    (describeMethod settings m offset).isConstructor = isConstructor m := by
  unfold describeMethod
  cases isConstructor m <;> rfl

theorem areOf_describeMethod (m : ν) (offset : Nat) :
    (describeMethod settings m offset).parameters.AreOf (parameters m) := by
  rw [parameters_describeMethod]
  exact areOf_parameterPairs (parameters m)

theorem isRecordOf_of_describe {n : ν} {offset : Nat} {d : Description}
    (h : describe settings n offset = .ok (some d)) : d.IsRecordOf n ∧ d.offset = offset := by
  have hoffset : d.offset = offset :=
    ((levels_of_describe settings h).2 d d.mem_levels_self).1
  have hvalid : d.validate = .ok () :=
    Description.validate_of_paired (paired_of_describe settings h)
  have hread : d.offset < Json.wordLimit → Description.read d.render = .ok d := by
    intro hlt
    have hreadable := readable_of_describe settings (hoffset ▸ hlt) h
    rw [← Description.read_compact d hreadable.addressable]
    exact hreadable.read_compact
  refine ⟨?_, hoffset⟩
  rcases (describe_eq_some_iff settings).mp h with ⟨hn, rfl⟩ | ⟨hn, m, hm, rfl⟩
  · have hmethod := isLambda_describeMethod settings n offset
    refine ⟨hvalid, areOf_describeMethod settings n offset, ?_, ?_, ?_, ?_, hread⟩
    · simp [isConstructor_describeMethod, hn]
    · simp [hmethod, hn]
    · intro _
      exact levels_describeMethod settings n offset
    · intro hlambda
      rw [hmethod] at hlambda
      cases hlambda
  · refine ⟨hvalid, areOf_parameterPairs (parameters n), ?_, ?_, ?_, ?_, hread⟩
    · simp [Description.isConstructor, hn]
    · simp [Description.isLambda, hn]
    · intro hmethod
      cases hmethod
    · intro _
      refine ⟨m, describeMethod settings m offset, containingMethod_eq_some_iff.mp hm, ?_, rfl,
        isLambda_describeMethod settings m offset, ?_, areOf_describeMethod settings m offset⟩
      · rw [Description.levels_lambda, levels_describeMethod]
      · rw [isConstructor_describeMethod]

theorem exists_constructor_iff {n : ν} {offset : Nat} :
    (∃ d, describe settings n offset = .ok (some d) ∧ d.isConstructor = true) ↔
      kind n = .method ∧ isConstructor n = true := by
  constructor
  · rintro ⟨d, hd, hconstructor⟩
    exact (isRecordOf_of_describe settings hd).1.isConstructor_iff.mp hconstructor
  · rintro ⟨hn, hconstructor⟩
    refine ⟨describeMethod settings n offset, ?_, ?_⟩
    · exact (describe_eq_some_iff settings).mpr (Or.inl ⟨hn, rfl⟩)
    · rw [isConstructor_describeMethod, hconstructor]

theorem exists_of_mem_listAll {r : ν} {d : Description} (hd : d ∈ listAll settings r) :
    ∃ n ∈ preorder r, d.IsRecordOf n := by
  obtain ⟨n, hn, hhere⟩ := (mem_listAll settings).mp hd
  exact ⟨n, hn, (isRecordOf_of_describe settings hhere).1⟩

theorem exists_of_mem_describeAll {r : ν} {ds : List Description}
    (h : describeAll settings r = .ok ds) : ∀ d ∈ ds, ∃ n ∈ preorder r, d.IsRecordOf n := by
  intro d hd
  rw [((describeAll_eq_ok_iff settings).mp h).2] at hd
  exact exists_of_mem_listAll settings hd

end Describe

theorem SourceFile.isRecordOf_of_describeAt {settings : AttributeSettings} {f : SourceFile}
    {offset : Nat} {d : Description} (h : f.describeAt settings offset = .ok (some d)) :
    ∃ n, f.declarationAt offset = some n ∧ d.IsRecordOf n := by
  obtain ⟨n, hn, hhere⟩ := (SourceFile.describeAt_eq_some_iff settings).mp h
  exact ⟨n, hn, (isRecordOf_of_describe settings hhere).1⟩

theorem FileTree.isRecordOf_of_describeAt {settings : AttributeSettings} {t : FileTree}
    {path : String} {offset : Nat} {protocol : Option String} {d : Description}
    (h : t.describeAt settings path offset protocol = .ok (some d)) :
    ∃ f n, t.loadSource path = .ok f ∧
      SourceFile.declarationAt { f with protocol := protocol.getD f.protocol } offset = some n ∧
      d.IsRecordOf n := by
  obtain ⟨f, hf, hat⟩ := FileTree.describeAt_eq_some_iff.mp h
  obtain ⟨n, hn, hd⟩ := SourceFile.isRecordOf_of_describeAt hat
  exact ⟨f, n, hf, hn, hd⟩

/-- Whatever is described, on every way to a record and by every front end, is a record of its node,
and a constructor's where the node is one: it is valid, tells each parameter in its place, a lambda
encloses one method or constructor, and its written form reads back as itself. -/
theorem described_is_record (settings : AttributeSettings) :
    (∀ (ν : Type) [SourceNode ν],
      (∀ (n : ν) (offset : Nat) (d : Description), describe settings n offset = .ok (some d) →
        d.IsRecordOf n ∧ d.offset = offset) ∧
      (∀ (n : ν) (offset : Nat),
        (∃ d, describe settings n offset = .ok (some d) ∧ d.isConstructor = true) ↔
          kind n = .method ∧ isConstructor n = true) ∧
      ∀ (r : ν) (ds : List Description), describeAll settings r = .ok ds →
        ∀ d ∈ ds, ∃ n ∈ preorder r, d.IsRecordOf n) ∧
      (∀ f : SourceFile, ∀ d ∈ f.descriptions settings, ∃ n ∈ preorder f.root, d.IsRecordOf n) ∧
      (∀ (f : SourceFile) (offset : Nat) (d : Description),
        f.describeAt settings offset = .ok (some d) →
          ∃ n, f.declarationAt offset = some n ∧ d.IsRecordOf n) ∧
      ∀ (t : FileTree) (path : String) (offset : Nat) (protocol : Option String) (d : Description),
        t.describeAt settings path offset protocol = .ok (some d) →
          ∃ f n, t.loadSource path = .ok f ∧
            SourceFile.declarationAt { f with protocol := protocol.getD f.protocol } offset =
              some n ∧
            d.IsRecordOf n := by
  refine ⟨?_, ?_, ?_, ?_⟩
  · intro ν _
    refine ⟨?_, ?_, ?_⟩
    · intro n offset d h
      exact isRecordOf_of_describe settings h
    · intro n offset
      exact exists_constructor_iff settings
    · intro r ds h
      exact exists_of_mem_describeAll settings h
  · intro f d hd
    exact exists_of_mem_listAll settings hd
  · intro f offset d h
    exact SourceFile.isRecordOf_of_describeAt h
  · intro t path offset protocol d h
    exact FileTree.isRecordOf_of_describeAt h

/-- A constructor that has a type text, with two parameters of which one has only a type and the
other one nothing, and a lambda in it. -/
def builderOutline : Outline :=
  .build none [.addClass 0 "A" (some "p.A"), .addMethod 1 "A" (some "int"), .markConstructor 2,
    .addParameter 2 none "int", .add 2 .parameter, .addLambda 2 none]

/-- The lambda's record encloses a constructor's, in which no parameter is left out. -/
theorem described_is_record_builderOutline :
    ∃ d e, describe {} (builderOutline.node 5) 7 = .ok (some d) ∧ d.levels = [d, e] ∧
      e.isConstructor = true ∧ e.parameters.names[1]? = some "" ∧
      e.parameters.types[0]? = some "int" ∧ Description.read d.render = .ok d := by
  have hmethod : containingMethod (builderOutline.node 5) = some (builderOutline.node 2) := by
    decide +kernel
  have henclosed : Enclosed (builderOutline.node 5) := by
    intro _
    exact ⟨_, (containingMethod_eq_some_iff.mp hmethod).mem_ancestors, rfl⟩
  obtain ⟨d, hd, -⟩ := exists_describe {} (Or.inr rfl) henclosed 7
  obtain ⟨hrecord, hoffset⟩ := ((described_is_record {}).1 OutlineNode).1 _ 7 d hd
  have hlambda : d.isLambda = true := hrecord.isLambda_iff.mpr rfl
  obtain ⟨m, e, hm, hlevels, -, -, hconstructor, hparameters⟩ := hrecord.levels_of_lambda hlambda
  have hm2 : m = builderOutline.node 2 := by
    rw [← containingMethod_eq_some_iff, hmethod] at hm
    exact (Option.some.inj hm).symm
  subst hm2
  refine ⟨d, e, hd, hlevels, hconstructor.mpr rfl, ?_, ?_, ?_⟩
  · exact hparameters.name_at 1 (builderOutline.node 4) rfl
  · exact hparameters.type_at 0 (builderOutline.node 3) rfl
  · apply hrecord.reads_back
    rw [hoffset]
    decide +kernel

end DeclScribe
