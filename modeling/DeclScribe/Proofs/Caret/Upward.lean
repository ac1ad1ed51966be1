import DeclScribe.Proofs.Caret.Lookup
import DeclScribe.Proofs.Describe.Enclosing

/-!
Searches upward. A search goes from a node to its parent, one at a time, until it stops; it may
start at the node of a caret or at the parent of a lambda. Where the declaration at a caret is a
lambda, all of them end at the same method.
-/

namespace DeclScribe

open SourceNode Describe Syntax

namespace SourceNode

variable {ν : Type} [SourceNode ν]

/-- How a search ends that goes up one parent at a time. It starts at a node, or at none; it stops
at the first node of the sort, or when there is no parent left. -/
inductive Climbs (sort : ν → Prop) : Option ν → Option ν → Prop
  | spent : Climbs sort none none
  | found {n : ν} (h : sort n) : Climbs sort (some n) (some n)
  | up {n : ν} {stop : Option ν} (h : ¬ sort n) (rest : Climbs sort (parent n) stop) :
    Climbs sort (some n) stop

/-- A search has one end. -/
theorem Climbs.unique {sort : ν → Prop} {start stop other : Option ν}
    (h : Climbs sort start stop) (hother : Climbs sort start other) : stop = other := by
  induction h with
  | spent =>
    cases hother
    rfl
  | found hn =>
    cases hother with
    | found => rfl
    | up hnot => exact absurd hn hnot
  | up hn rest ih =>
    cases hother with
    | found hsort => exact absurd hsort hn
    | up _ hrest => exact ih hrest

/-- What a search stops at is passed by a search for a narrower sort, which goes on from there. -/
theorem Climbs.through {sort narrow : ν → Prop} (hnarrow : ∀ n, narrow n → sort n)
    {start stop : Option ν} {n : ν} (h : Climbs sort start (some n))
    (hrest : Climbs narrow (some n) stop) : Climbs narrow start stop := by
  generalize hend : some n = last at h
  induction h with
  | spent => cases hend
  | found =>
    cases hend
    exact hrest
  | up hn _ ih => exact .up (fun hsort => hn (hnarrow _ hsort)) (ih hend)

end SourceNode

namespace FileNode

variable {sort : FileNode → Prop} [DecidablePred sort]

/-- What is above a node of a file is its parent and what is above that one. -/
theorem ancestors_eq_parent (n : FileNode) :
    ancestors n = match parent n with
      | none => []
      | some p => p :: ancestors p := by
  obtain ⟨f, t, above⟩ := n
  cases above with
  | nil => rfl
  | cons level above => rfl

/-- From the parent of a node, a search ends at the first node of the sort above. -/
theorem climbs_parent (n : FileNode) :
    Climbs sort (parent n) ((ancestors n).find? fun a => sort a) := by
  -- on how many nodes are above
  induction hlength : (ancestors n).length generalizing n with
  | zero =>
    have habove : ancestors n = [] := List.length_eq_zero_iff.mp hlength
    rw [parent, habove]
    exact .spent
  | succ k ih =>
    have hsplit := ancestors_eq_parent n
    cases hp : parent n with
    | none =>
      rw [hp] at hsplit
      simp [hsplit] at hlength
    | some p =>
      rw [hp] at hsplit
      have hlength : (ancestors p).length = k := by
        rw [hsplit, List.length_cons] at hlength
        exact Nat.succ.inj hlength
      rw [hsplit]
      by_cases hsort : sort p
      · rw [List.find?_cons_of_pos (by simpa using hsort)]
        exact .found hsort
      · rw [List.find?_cons_of_neg (by simpa using hsort)]
        exact .up hsort (ih p hlength)

theorem climbs_self (n : FileNode) :
    Climbs sort (some n) ((n :: ancestors n).find? fun a => sort a) := by
  by_cases hsort : sort n
  · rw [List.find?_cons_of_pos (by simpa using hsort)]
    exact .found hsort
  · rw [List.find?_cons_of_neg (by simpa using hsort)]
    exact .up hsort (climbs_parent n)

theorem climbs_containingMethod (n : FileNode) :
    Climbs (fun a => kind a = .method) (parent n) (containingMethod n) :=
  climbs_parent n

end FileNode

namespace SourceFile

/-- A lookup by kinds is a search up from the node at the offset. -/
theorem climbs_innermost (f : SourceFile) (kinds : List NodeKind) (offset : Nat) :
    Climbs (fun a => kind a ∈ kinds) (f.nodeAt offset)
      ((f.nodeAt offset).bind (innermost kinds)) := by
  cases f.nodeAt offset with
  | none => exact .spent
  | some n =>
    have hway : Climbs (fun a => kind a ∈ kinds) (some n) _ := FileNode.climbs_self n
    rw [Option.bind_some, innermost]
    simpa using hway

theorem climbs_declarationAt (f : SourceFile) (offset : Nat) :
    Climbs IsDeclaration (f.nodeAt offset) (f.declarationAt offset) := by
  have hway := climbs_innermost f [.method, .lambda] offset
  simp only [List.mem_cons, List.not_mem_nil, or_false] at hway
  exact hway

theorem climbs_methodAt (f : SourceFile) (offset : Nat) :
    Climbs (fun a => kind a = .method) (f.nodeAt offset) (f.methodAt offset) := by
  have hway := climbs_innermost f [.method] offset
  simp only [List.mem_singleton] at hway
  exact hway

/-- From the declaration at an offset on, the search for a method goes where the lookup of the
method went. -/
theorem methodAt_eq_of_climbs {f : SourceFile} {offset : Nat} {n : FileNode}
    {stop : Option FileNode} (hn : f.declarationAt offset = some n)
    (hstop : Climbs (fun a => kind a = .method) (some n) stop) : f.methodAt offset = stop := by
  have hway := climbs_declarationAt f offset
  rw [hn] at hway
  exact (climbs_methodAt f offset).unique (hway.through (fun _ => Or.inl) hstop)

theorem methodAt_eq_containingMethod {f : SourceFile} {offset : Nat} {l : FileNode}
    (hl : f.declarationAt offset = some l) (hkind : kind l = .lambda) :
    f.methodAt offset = containingMethod l := by
  have hnot : ¬ kind l = .method := by simp [hkind]
  exact methodAt_eq_of_climbs hl (.up hnot (FileNode.climbs_containingMethod l))

end SourceFile

/-- The lookup of a declaration, the lookup of a method and the search for the method of a lambda
agree, though they start at different nodes. Where the declaration at an offset is a method, it is
the method there. Where it is a lambda, the method at the offset is what any search up from the
parent of the lambda ends at: the method nearest above the lambda, whatever else lies between. So
the lambda is refused where there is no such method, and else it encloses the description of that
method at its own offset. -/
theorem upward_searches_agree (settings : AttributeSettings) (f : SourceFile) (offset : Nat) :
    Climbs IsDeclaration (f.nodeAt offset) (f.declarationAt offset) ∧
      Climbs (fun a => kind a = .method) (f.nodeAt offset) (f.methodAt offset) ∧
      (∀ m, f.declarationAt offset = some m → kind m = .method → f.methodAt offset = some m) ∧
      ∀ l, f.declarationAt offset = some l → kind l = .lambda →
        (∀ stop, Climbs (fun a => kind a = .method) (parent l) stop ↔ stop = f.methodAt offset) ∧
        containingMethod l = f.methodAt offset ∧
        (∀ m, f.methodAt offset = some m ↔ IsNearestMethod m l) ∧
        (∀ o, (describeLambda settings l o = .error (.noEnclosingMethod o) ↔
            f.methodAt offset = none) ∧
          ∀ m, f.methodAt offset = some m → describeLambda settings l o =
            .ok (.lambda (describeMethod settings m o) (typeText l) (parameterPairs (parameters l))
              o)) ∧
        (f.describeAt settings offset = .error (.noEnclosingMethod (navigationOffset l)) ↔
          f.methodAt offset = none) ∧
        ∀ m, f.methodAt offset = some m → ∃ d, f.describeAt settings offset = .ok (some d) ∧
          d.offset = navigationOffset l ∧
          d.enclosing = some (describeMethod settings m (navigationOffset l)) := by
  refine ⟨f.climbs_declarationAt offset, f.climbs_methodAt offset, ?_, ?_⟩
  · intro m hm hkind
    exact SourceFile.methodAt_eq_of_climbs hm (.found hkind)
  intro l hl hkind
  have hmethod : f.methodAt offset = containingMethod l :=
    SourceFile.methodAt_eq_containingMethod hl hkind
  have hat : f.describeAt settings offset =
      (describeLambda settings l (navigationOffset l)).map some := by
    rw [SourceFile.describeAt_eq_elim, hl, Option.elim_some, describeHere, describe, hkind]
  rw [hmethod, hat]
  refine ⟨?_, rfl, ?_, ?_, ?_, ?_⟩
  · intro stop
    refine ⟨fun h => h.unique (FileNode.climbs_containingMethod l), ?_⟩
    rintro rfl
    exact FileNode.climbs_containingMethod l
  · exact fun m => containingMethod_eq_some_iff
  · intro o
    unfold describeLambda
    cases containingMethod l <;> simp
  · unfold describeLambda
    cases containingMethod l <;> simp [Except.map]
  · intro m hm
    refine ⟨.lambda (describeMethod settings m (navigationOffset l)) (typeText l)
      (parameterPairs (parameters l)) (navigationOffset l), ?_, rfl, rfl⟩
    rw [describeLambda, hm]
    rfl

/-- In the listener the constructor encloses the inner lambda, with a lambda and a class between the
two. In the field of the task file nothing encloses the lambda. -/
theorem upward_searches_agree_listenerFile :
    (∃ l m d, listenerFile.declarationAt 48 = some l ∧ kind l = .lambda ∧
      listenerFile.methodAt 48 = some m ∧ m.cursor.start = 10 ∧ IsNearestMethod m l ∧
      listenerFile.describeAt {} 48 = .ok (some d) ∧
      d.enclosing = some (describeMethod {} m (navigationOffset l))) ∧
      (∃ m, listenerFile.declarationAt 12 = some m ∧ listenerFile.methodAt 12 = some m) ∧
      taskFile.describeAt {} 26 = .error (.noEnclosingMethod 21) := by
  refine ⟨?_, ?_, ?_⟩
  · obtain ⟨l, hl, hkind⟩ : ∃ l, listenerFile.declarationAt 48 = some l ∧ kind l = .lambda := by
      rw [SourceFile.declarationAt_eq_find? (by decide +kernel),
        Cursor.smallestAt_eq_descend (k := 20) rfl]
      exact ⟨_, rfl, rfl⟩
    obtain ⟨m, hm, hstart⟩ : ∃ m, listenerFile.methodAt 48 = some m ∧ m.cursor.start = 10 := by
      rw [SourceFile.methodAt, SourceFile.bind_innermost_eq_find? _ (by decide +kernel),
        Cursor.smallestAt_eq_descend (k := 20) rfl]
      exact ⟨_, rfl, rfl⟩
    obtain ⟨-, -, hnearest, -, -, hdescribed⟩ :=
      (upward_searches_agree {} listenerFile 48).2.2.2 l hl hkind
    obtain ⟨d, hd, -, henclosing⟩ := hdescribed m hm
    exact ⟨l, m, d, hl, hkind, hm, hstart, (hnearest m).mp hm, hd, henclosing⟩
  · obtain ⟨m, hm, hkind⟩ : ∃ m, listenerFile.declarationAt 12 = some m ∧ kind m = .method := by
      rw [SourceFile.declarationAt_eq_find? (by decide +kernel),
        Cursor.smallestAt_eq_descend (k := 20) rfl]
      exact ⟨_, rfl, rfl⟩
    exact ⟨m, hm, (upward_searches_agree {} listenerFile 12).2.2.1 m hm hkind⟩
  · obtain ⟨l, hl, hkind, hoffset⟩ : ∃ l, taskFile.declarationAt 26 = some l ∧
        kind l = .lambda ∧ navigationOffset l = 21 := by
      rw [SourceFile.declarationAt_eq_find? (by decide +kernel),
        Cursor.smallestAt_eq_descend (k := 9) rfl]
      exact ⟨_, rfl, rfl, rfl⟩
    have hnone : taskFile.methodAt 26 = none := by
      rw [SourceFile.methodAt, SourceFile.bind_innermost_eq_find? _ (by decide +kernel),
        Cursor.smallestAt_eq_descend (k := 9) rfl]
      rfl
    obtain ⟨-, -, -, -, hrefused, -⟩ := (upward_searches_agree {} taskFile 26).2.2.2 l hl hkind
    rw [← hoffset]
    exact hrefused.mpr hnone

end DeclScribe
