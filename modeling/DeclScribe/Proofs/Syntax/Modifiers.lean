import DeclScribe.Syntax.Java
import DeclScribe.Syntax.Kotlin
import Mathlib.Data.List.Nodup

/-!
Implied modifiers. A node has its written modifiers and, behind them, the keywords that its language
implies. Which ones these are depends on the node, on where it is declared and on what is written;
no keyword is implied that is written, and none is implied twice or against another one.
-/

namespace DeclScribe.Syntax

section Completes

/-- Whether a list is another one with the words of a rule behind it, each of them new and none of
them there twice. -/
structure Completes (rule : String → Prop) (written all : List String) : Prop where
  exists_implied : ∃ implied, all = written ++ implied ∧ implied.Nodup ∧
    (∀ k ∈ implied, k ∉ written) ∧ ∀ k, k ∈ implied ↔ rule k

namespace Completes

variable {rule rule' : String → Prop} {written all : List String}

theorem refl (written : List String) : Completes (fun _ => False) written written :=
  ⟨[], by simp⟩

theorem congr (h : Completes rule written all) (hrule : ∀ k, rule k ↔ rule' k) :
    Completes rule' written all := by
  obtain ⟨implied, hall, hnodup, hnew, hmem⟩ := h.exists_implied
  exact ⟨implied, hall, hnodup, hnew, fun k => (hmem k).trans (hrule k)⟩

theorem mem_iff (h : Completes rule written all) {k : String} : k ∈ all ↔ k ∈ written ∨ rule k := by
  obtain ⟨implied, rfl, -, -, hmem⟩ := h.exists_implied
  rw [List.mem_append, hmem]

theorem adding (h : Completes rule written all) (w : String) :
    Completes (fun k => rule k ∨ k = w ∧ w ∉ all) written (Syntax.adding w all) := by
  unfold Syntax.adding
  by_cases hw : w ∈ all
  · rw [if_pos (List.contains_iff_mem.mpr hw)]
    exact h.congr fun k => by simp [hw]
  · rw [if_neg (mt List.contains_iff_mem.mp hw)]
    obtain ⟨implied, rfl, hnodup, hnew, hmem⟩ := h.exists_implied
    obtain ⟨hwritten, himplied⟩ := not_or.mp (mt List.mem_append.mpr hw)
    refine ⟨implied ++ [w], List.append_assoc .., ?_, ?_, fun k => ?_⟩
    · exact hnodup.append (List.nodup_singleton w) (List.disjoint_singleton.mpr himplied)
    · intro k hk
      rcases List.mem_append.mp hk with hk | hk
      · exact hnew k hk
      · exact List.mem_singleton.mp hk ▸ hwritten
    · rw [List.mem_append, List.mem_singleton, hmem]
      simp [hw]

/-- A word that is added on a condition is a further word of the rule. -/
theorem addingIf (h : Completes rule written all) (w : String) (p : Prop) [Decidable p] :
    Completes (fun k => rule k ∨ p ∧ k = w ∧ w ∉ all) written
      (if p then Syntax.adding w all else all) := by
  by_cases hp : p
  · rw [if_pos hp]
    exact (h.adding w).congr fun k => by simp [hp]
  · rw [if_neg hp]
    exact h.congr fun k => by simp [hp]

end Completes

end Completes

namespace Java

/-- Whether a node stands directly in the body of an interface or of an annotation type. -/
def StandsInInterface (c : Cursor) : Prop :=
  ∃ body owner, c.parent = some body ∧
    (body.kind = "interface_body" ∨ body.kind = "annotation_type_body") ∧ body.parent = some owner

theorem isInterfaceMember_iff {c : Cursor} : isInterfaceMember c = true ↔ StandsInInterface c := by
  rw [isInterfaceMember, StandsInInterface]
  cases c.parent with
  | none => simp
  | some body => simp [Option.isSome_iff_exists]

/-- Whether a node has a keyword without its being written. -/
def Implied (c : Cursor) (k : String) : Prop :=
  StandsInInterface c ∧ k ∉ writtenModifiers c ∧
    (k = "public" ∧ "private" ∉ writtenModifiers c ∨
      k = "abstract" ∧ c.kind = "method_declaration" ∧ c.childByField .body = none ∧
        (∀ w ∈ ["default", "static", "private"], w ∉ writtenModifiers c) ∨
      k = "static" ∧ c.kind ∈ typeKinds)

theorem completes_visible (written : List String) :
    Completes (fun k => k = "public" ∧ "public" ∉ written ∧ "private" ∉ written) written
      (if written.contains "private" then written else adding "public" written) := by
  have hvisible := (Completes.refl written).addingIf "public" ("private" ∉ written)
  simp only [ite_not, ← List.contains_iff_mem] at hvisible
  refine hvisible.congr fun k => ?_
  simp only [List.contains_iff_mem]
  tauto

/-- A node has the written modifiers and then the implied ones. -/
theorem modifiers_complete (c : Cursor) :
    Completes (Implied c) (writtenModifiers c) (modifiers c) := by
  by_cases hmember : StandsInInterface c
  · have hvisible := completes_visible (writtenModifiers c)
    rw [modifiers, isInterfaceMember_iff.mpr hmember]
    generalize (if (writtenModifiers c).contains "private" then writtenModifiers c
      else adding "public" (writtenModifiers c)) = visible at hvisible ⊢
    -- but for `public` itself, what is visible is what is written
    have hmem {w : String} (hw : w ≠ "public") : w ∈ visible ↔ w ∈ writtenModifiers c := by
      rw [hvisible.mem_iff]
      simp [hw]
    have hconcrete : ((c.childByField .body).isNone &&
        !(["default", "static", "private"].any visible.contains)) = true ↔
          c.childByField .body = none ∧
            ∀ w ∈ ["default", "static", "private"], w ∉ writtenModifiers c := by
      simp [hmem]
    simp only [Bool.not_true, Bool.false_eq_true, if_false, beq_iff_eq, List.contains_iff_mem,
      hconcrete]
    by_cases hmethod : c.kind = "method_declaration"
    · have htype : c.kind ∉ typeKinds := by
        rw [hmethod]
        decide
      rw [if_pos hmethod]
      refine (hvisible.addingIf "abstract" _).congr fun k => ?_
      rw [hmem (by decide)]
      grind [Implied]
    · rw [if_neg hmethod]
      refine (hvisible.addingIf "static" _).congr fun k => ?_
      rw [hmem (by decide)]
      grind [Implied]
  · have hwritten : modifiers c = writtenModifiers c := by
      simp [modifiers, mt isInterfaceMember_iff.mp hmember]
    rw [hwritten]
    exact (Completes.refl _).congr fun k => by simp [Implied, hmember]

theorem mem_modifiers_iff {c : Cursor} {k : String} :
    k ∈ modifiers c ↔ k ∈ writtenModifiers c ∨ Implied c k :=
  (modifiers_complete c).mem_iff

theorem implied_abstract_iff {c : Cursor} : Implied c "abstract" ↔
    StandsInInterface c ∧ "abstract" ∉ writtenModifiers c ∧ c.kind = "method_declaration" ∧
      c.childByField .body = none ∧
      ∀ w ∈ ["default", "static", "private"], w ∉ writtenModifiers c := by
  simp [Implied]

theorem public_or_private_of_standsInInterface {c : Cursor} (h : StandsInInterface c) :
    "public" ∈ modifiers c ∨ "private" ∈ modifiers c := by
  by_cases hprivate : "private" ∈ writtenModifiers c
  · exact Or.inr (mem_modifiers_iff.mpr (Or.inl hprivate))
  · refine Or.inl (mem_modifiers_iff.mpr ?_)
    by_cases hpublic : "public" ∈ writtenModifiers c
    · exact Or.inl hpublic
    · exact Or.inr ⟨h, hpublic, Or.inl ⟨rfl, hprivate⟩⟩

/-- What is abstract by implication has no keyword that says otherwise, be it an implied one. -/
theorem not_mem_modifiers_of_implied_abstract {c : Cursor} (h : Implied c "abstract") :
    ∀ k ∈ ["default", "static", "private"], k ∉ modifiers c := by
  obtain ⟨-, -, hmethod, -, hwritten⟩ := implied_abstract_iff.mp h
  have htype : c.kind ∉ typeKinds := by
    rw [hmethod]
    decide
  intro k hk hmem
  rcases mem_modifiers_iff.mp hmem with hk' | ⟨-, -, ⟨rfl, -⟩ | ⟨rfl, -⟩ | ⟨-, hkind⟩⟩
  · exact hwritten k hk hk'
  · exact absurd hk (by decide)
  · exact absurd hk (by decide)
  · exact htype hkind

end Java

namespace Kotlin

/-- Whether a node declares a type that has a name, a function or a constructor. -/
def Declares (c : Cursor) : Prop :=
  (kind c = .type ∨ kind c = .method) ∧ c.kind ≠ "object_literal"

/-- Whether a node stands directly in the body of an interface. -/
def StandsInInterface (c : Cursor) : Prop :=
  ∃ body owner, c.parent = some body ∧ body.kind = "class_body" ∧ body.parent = some owner ∧
    isInterface owner = true

theorem isInterfaceMember_iff {c : Cursor} : isInterfaceMember c = true ↔ StandsInInterface c := by
  simp only [isInterfaceMember, StandsInInterface, Option.any_eq_true, Option.bind_eq_some_iff,
    Option.filter_eq_some_iff, beq_iff_eq]
  grind

/-- Whether a node has a keyword without its being written. -/
def Implied (source : String) (c : Cursor) (k : String) : Prop :=
  Declares c ∧ k ∉ writtenModifiers source c ∧
    (k = "public" ∧ (∀ v ∈ visibilities, v ∉ writtenModifiers source c) ∨
      k = "abstract" ∧ c.kind = "function_declaration" ∧
        c.hasChildOfKind "function_body" = false ∧ StandsInInterface c ∨
      k = "final" ∧ isConstructor c = false ∧ isInterface c = false ∧ ¬ StandsInInterface c ∧
        ∀ o ∈ opening, o ∉ writtenModifiers source c)

theorem completes_visible (written : List String) :
    Completes (fun k => k = "public" ∧ ∀ v ∈ visibilities, v ∉ written) written
      (if visibilities.any written.contains then written else written ++ ["public"]) := by
  have hvisible := (Completes.refl written).addingIf "public" (∀ v ∈ visibilities, v ∉ written)
  have hpublic : "public" ∈ visibilities := by decide
  by_cases hnone : ∀ v ∈ visibilities, v ∉ written
  · have hany : visibilities.any written.contains = false := by simpa using hnone
    have hnew : adding "public" written = written ++ ["public"] := by
      simp [adding, hnone "public" hpublic]
    rw [if_pos hnone, hnew] at hvisible
    rw [hany]
    exact hvisible.congr fun k => by simp [hnone "public" hpublic, and_comm]
  · have hany : visibilities.any written.contains = true := by simpa using hnone
    rw [if_neg hnone] at hvisible
    rw [hany]
    exact hvisible.congr fun k => by simp [hnone]

theorem declares_iff {c : Cursor} : Declares c ↔
    ((kind c != .type && kind c != .method) || c.kind == "object_literal") = false := by
  simp [Declares]
  tauto

/-- A node has the written modifiers and then the implied ones. -/
theorem modifiers_complete (source : String) (c : Cursor) :
    Completes (Implied source c) (writtenModifiers source c) (modifiers source c) := by
  by_cases hdeclares : Declares c
  · have hvisible := completes_visible (writtenModifiers source c)
    rw [modifiers, declares_iff.mp hdeclares]
    generalize (if visibilities.any (writtenModifiers source c).contains then
      writtenModifiers source c else writtenModifiers source c ++ ["public"]) = visible
      at hvisible ⊢
    -- but for `public` itself, what is visible is what is written
    have hmem {w : String} (hw : w ≠ "public") : w ∈ visible ↔ w ∈ writtenModifiers source c := by
      rw [hvisible.mem_iff]
      simp [hw]
    have hpublic : "public" ∈ visibilities := by decide
    simp only [Bool.false_eq_true, if_false]
    by_cases hconstructor : isConstructor c = true
    · have hfunction : c.kind ≠ "function_declaration" := by
        intro hkind
        simp [isConstructor, constructorKinds, hkind] at hconstructor
      rw [if_pos hconstructor]
      refine hvisible.congr fun k => ?_
      grind [Implied]
    · rw [if_neg hconstructor]
      by_cases hmember : StandsInInterface c
      · -- nothing in an interface is final
        rw [isInterfaceMember_iff.mpr hmember]
        simp only [Bool.true_and, Bool.or_true, Bool.true_or, if_true]
        refine (hvisible.addingIf "abstract" _).congr fun k => ?_
        grind [Implied]
      · have hnot : isInterfaceMember c = false := by
          simpa using mt isInterfaceMember_iff.mp hmember
        have hopen : (opening.any visible.contains || isInterface c) = true ↔
            ¬ (isInterface c = false ∧ ∀ o ∈ opening, o ∉ writtenModifiers source c) := by
          cases isInterface c with
          | true => simp
          | false =>
            simp [opening, hmem]
            tauto
        simp only [hnot, Bool.false_and, Bool.false_eq_true, if_false, Bool.or_false, hopen,
          ite_not]
        have hfinal := hvisible.addingIf "final"
          (isInterface c = false ∧ ∀ o ∈ opening, o ∉ writtenModifiers source c)
        refine hfinal.congr fun k => ?_
        rw [hmem (by decide)]
        grind [Implied]
  · have hwritten : modifiers source c = writtenModifiers source c := by
      rw [declares_iff, Bool.not_eq_false] at hdeclares
      rw [modifiers, hdeclares]
      rfl
    rw [hwritten]
    exact (Completes.refl _).congr fun k => by simp [Implied, hdeclares]

theorem mem_modifiers_iff {source : String} {c : Cursor} {k : String} :
    k ∈ modifiers source c ↔ k ∈ writtenModifiers source c ∨ Implied source c k :=
  (modifiers_complete source c).mem_iff

theorem implied_final_iff {source : String} {c : Cursor} : Implied source c "final" ↔
    Declares c ∧ "final" ∉ writtenModifiers source c ∧ isConstructor c = false ∧
      isInterface c = false ∧ ¬ StandsInInterface c ∧
      ∀ o ∈ opening, o ∉ writtenModifiers source c := by
  simp [Implied]

theorem exists_visibility_of_declares (source : String) {c : Cursor} (h : Declares c) :
    ∃ v ∈ visibilities, v ∈ modifiers source c := by
  by_cases hnone : ∀ v ∈ visibilities, v ∉ writtenModifiers source c
  · have hpublic : "public" ∈ visibilities := by decide
    have himplied : Implied source c "public" := ⟨h, hnone "public" hpublic, Or.inl ⟨rfl, hnone⟩⟩
    exact ⟨"public", hpublic, mem_modifiers_iff.mpr (Or.inr himplied)⟩
  · push Not at hnone
    obtain ⟨v, hv, hwritten⟩ := hnone
    exact ⟨v, hv, mem_modifiers_iff.mpr (Or.inl hwritten)⟩

/-- What is final by implication has no keyword that says otherwise, be it an implied one. -/
theorem not_mem_modifiers_of_implied_final {source : String} {c : Cursor}
    (h : Implied source c "final") : ∀ k ∈ opening, k ∉ modifiers source c := by
  obtain ⟨-, -, -, -, hmember, hwritten⟩ := implied_final_iff.mp h
  intro k hk hmem
  rcases mem_modifiers_iff.mp hmem with hk' | ⟨-, -, ⟨rfl, -⟩ | ⟨-, -, -, hin⟩ | ⟨rfl, -⟩⟩
  · exact hwritten k hk hk'
  · exact absurd hk (by decide)
  · exact hmember hin
  · exact absurd hk (by decide)

end Kotlin

/-- In both languages a node has its written modifiers and behind them the implied ones, which are
new and pairwise distinct. In Java nothing is implied of a node that does not stand directly in an
interface or an annotation type, and one that does is public or private; `abstract` is implied of
methods without a body that have no keyword against it, and `static` of types. In Kotlin every
declaration of a named type, a function or a constructor has a visibility; `abstract` is implied of
functions without a body directly in an interface, and `final` neither there nor of constructors or
interfaces nor beside a keyword against it. -/
theorem modifiers_imply_consistently (source : String) (c : Cursor) :
    (∃ implied, Dialect.java.modifiers source c = Java.writtenModifiers c ++ implied ∧
      implied.Nodup ∧ (∀ k ∈ implied, k ∉ Java.writtenModifiers c) ∧
      (∀ k, k ∈ implied ↔ Java.Implied c k) ∧
      (implied ≠ [] → Java.StandsInInterface c) ∧
      (Java.StandsInInterface c → "public" ∈ Dialect.java.modifiers source c ∨
        "private" ∈ Dialect.java.modifiers source c) ∧
      ("abstract" ∈ implied → c.kind = "method_declaration" ∧ c.childByField .body = none ∧
        ∀ k ∈ ["default", "static", "private"], k ∉ Dialect.java.modifiers source c) ∧
      ("static" ∈ implied → c.kind ∈ Java.typeKinds)) ∧
    ∃ implied, Dialect.kotlin.modifiers source c = Kotlin.writtenModifiers source c ++ implied ∧
      implied.Nodup ∧ (∀ k ∈ implied, k ∉ Kotlin.writtenModifiers source c) ∧
      (∀ k, k ∈ implied ↔ Kotlin.Implied source c k) ∧
      (Kotlin.Declares c → ∃ v ∈ Kotlin.visibilities, v ∈ Dialect.kotlin.modifiers source c) ∧
      ("abstract" ∈ implied → c.kind = "function_declaration" ∧
        c.hasChildOfKind "function_body" = false ∧ Kotlin.StandsInInterface c) ∧
      ("final" ∈ implied → Kotlin.isConstructor c = false ∧ Kotlin.isInterface c = false ∧
        ¬ (c.kind = "function_declaration" ∧ Kotlin.StandsInInterface c) ∧
        ∀ k ∈ Kotlin.opening, k ∉ Dialect.kotlin.modifiers source c) := by
  have hjava := Java.modifiers_complete c
  have hkotlin := Kotlin.modifiers_complete source c
  obtain ⟨implied, hall, hnodup, hnew, hmem⟩ := hjava.exists_implied
  obtain ⟨implied', hall', hnodup', hnew', hmem'⟩ := hkotlin.exists_implied
  refine ⟨⟨implied, hall, hnodup, hnew, hmem, ?_, ?_, ?_, ?_⟩,
    implied', hall', hnodup', hnew', hmem', ?_, ?_, ?_⟩
  · intro hne
    obtain ⟨k, hk⟩ := List.exists_mem_of_ne_nil implied hne
    exact ((hmem k).mp hk).1
  · exact Java.public_or_private_of_standsInInterface
  · intro himplied
    have habstract := (hmem _).mp himplied
    obtain ⟨-, -, hmethod, hbodiless, -⟩ := Java.implied_abstract_iff.mp habstract
    exact ⟨hmethod, hbodiless, Java.not_mem_modifiers_of_implied_abstract habstract⟩
  · intro himplied
    have hstatic := (hmem _).mp himplied
    simpa using hstatic.2.2
  · exact Kotlin.exists_visibility_of_declares source
  · intro himplied
    have habstract := (hmem' _).mp himplied
    simpa using habstract.2.2
  · intro himplied
    have hfinal := (hmem' _).mp himplied
    obtain ⟨-, -, hconstructor, hinterface, hmember, -⟩ := Kotlin.implied_final_iff.mp hfinal
    exact ⟨hconstructor, hinterface, fun h => hmember h.2,
      Kotlin.not_mem_modifiers_of_implied_final hfinal⟩

end DeclScribe.Syntax
