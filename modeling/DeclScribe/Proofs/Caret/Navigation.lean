import DeclScribe.Proofs.Caret.Lookup

/-!
From a record back to its declaration. The offset that a record carries is that of the name, or of
the declaration itself where it has no name; the way down to that offset ends at the declaration or
at something below it that declares nothing.
-/

namespace DeclScribe

open SourceNode Descent Describe Syntax

theorem Syntax.Cursor.mem_children_of_childByField {c m : Cursor} {f : Field}
    (h : c.childByField f = some m) : m ∈ c.children :=
  List.mem_of_find?_eq_some h

theorem Syntax.Java.nameNode_mem_children {c m : Cursor}
    (hkind : Java.kind c = .method ∨ Java.kind c = .lambda) (hm : Java.nameNode c = some m) :
    m ∈ c.children := by
  have hcases : c.kind ∈ "lambda_expression" :: Java.methodKinds := by
    unfold Java.kind at hkind
    split at hkind
    · simp at hkind
    split at hkind
    · next h => exact List.mem_cons_of_mem _ (by simpa using h)
    split at hkind
    · next h => exact List.mem_cons.mpr (Or.inl (by simpa using h))
    split at hkind <;> simp at hkind
  have hname : Java.nameNode c = c.childByField .name := by
    simp only [Java.methodKinds, List.mem_cons, List.not_mem_nil, or_false] at hcases
    rcases hcases with h | h | h | h <;> simp [Java.nameNode, h]
  exact Cursor.mem_children_of_childByField (hname ▸ hm)

theorem Syntax.Kotlin.nameNode_mem_children {c m : Cursor} (hm : Kotlin.nameNode c = some m) :
    m ∈ c.children := by
  unfold Kotlin.nameNode at hm
  split at hm
  · cases hm
  · rcases Option.or_eq_some_iff.mp hm with h | ⟨-, h⟩
    · exact Cursor.mem_children_of_childByField h
    · exact (List.mem_filter.mp (List.mem_of_find?_eq_some h)).1

namespace FileNode

/-- The name of a method or a lambda is one of its children. -/
theorem nameNode_mem_children {n : FileNode} {m : Cursor} (hn : IsDeclaration n)
    (hm : n.dialect.nameNode n.cursor = some m) : m ∈ n.cursor.children := by
  change n.file.language.dialect.kind n.cursor = .method ∨
    n.file.language.dialect.kind n.cursor = .lambda at hn
  change n.file.language.dialect.nameNode n.cursor = some m at hm
  generalize n.file.language = l at hn hm
  cases l with
  | java => exact Java.nameNode_mem_children hn hm
  | kotlin => exact Kotlin.nameNode_mem_children hm

/-- Nothing but the node itself is declared at an offset to which its record leads: neither the
node nor its name is empty, no empty node is at the offset, nothing is declared within the name,
and without a name nothing below the node is declared where it starts. -/
structure SoleAt (n : FileNode) (offset : Nat) : Prop where
  width : n.cursor.start < n.cursor.stop
  no_empty : ∀ m ∈ n.file.nodes, ¬ (m.cursor.start = offset ∧ m.cursor.stop = offset)
  named : ∀ m ∈ n.dialect.nameNode n.cursor,
    m.start < m.stop ∧ ∀ c ∈ m.subtree, ¬ IsDeclaration (n.sibling c)
  unnamed : n.dialect.nameNode n.cursor = none →
    ∀ c ∈ n.cursor.inside, IsDeclaration (n.sibling c) → c.start ≠ n.cursor.start

instance (n : FileNode) (offset : Nat) : Decidable (n.SoleAt offset) :=
  decidable_of_iff
    (n.cursor.start < n.cursor.stop ∧
      (∀ c ∈ Cursor.walk (fun _ => true) n.file.tree [], ¬ (c.start = offset ∧ c.stop = offset)) ∧
      (∀ m ∈ n.dialect.nameNode n.cursor, m.start < m.stop ∧
        ∀ c ∈ Cursor.walk (fun _ => true) m.focus m.above, ¬ IsDeclaration (n.sibling c)) ∧
      (n.dialect.nameNode n.cursor = none →
        ∀ c ∈ (Cursor.walk (fun _ => true) n.cursor.focus n.cursor.above).tail,
          IsDeclaration (n.sibling c) → c.start ≠ n.cursor.start)) <| by
    simp only [← Cursor.subtree_eq_walk, ← Cursor.inside_eq_tail]
    have hnodes : (∀ m ∈ n.file.nodes, ¬ (m.cursor.start = offset ∧ m.cursor.stop = offset)) ↔
        ∀ c ∈ Cursor.walk (fun _ => true) n.file.tree [], ¬ (c.start = offset ∧ c.stop = offset) := by
      rw [SourceFile.nodes_eq_walk, List.forall_mem_map]
      rfl
    rw [← hnodes]
    exact ⟨fun h => ⟨h.1, h.2.1, h.2.2.1, h.2.2.2⟩,
      fun h => ⟨h.width, h.no_empty, h.named, h.unnamed⟩⟩

end FileNode

namespace SourceFile

variable {f : SourceFile} {c : Cursor}

/-- The way down to the offset of a name ends in the name, and the way up from there leads to the
declaration. -/
theorem find?_of_name {m : Cursor} {p : Cursor → Bool} {offset : Nat}
    (hf : ∀ d ∈ (Cursor.root f.tree).subtree, d.Spaced)
    (hc : c ∈ (Cursor.root f.tree).subtree) (hm : m ∈ c.children)
    (hstart : m.start = offset) (hstop : offset < m.stop)
    (hempty : ∀ e ∈ (Cursor.root f.tree).subtree, ¬ (e.start = offset ∧ e.stop = offset))
    (hpc : p c = true) (hpm : ∀ e ∈ m.subtree, p e = false) :
    (Cursor.smallestAt offset (.root f.tree) ::
      (Cursor.smallestAt offset (.root f.tree)).ancestors).find? p = some c := by
  have hmr := Cursor.mem_subtree_trans hc (Cursor.mem_subtree_of_mem_children hm)
  have hdown : Cursor.smallestAt offset (.root f.tree) = Cursor.smallestAt offset m :=
    Cursor.smallestAt_eq_of_covers hf hempty hmr (Nat.le_of_eq hstart) hstop
  have hinside : ∀ e ∈ m.inside, e.start ≤ offset → p e = false := fun e he _ =>
    hpm e (Cursor.subtree_eq m ▸ List.mem_cons_of_mem m he)
  have hpm' : ¬ p m = true := by simp [hpm m (Cursor.mem_subtree_self m)]
  rw [hdown, Cursor.find?_smallestAt p m hinside, List.find?_cons_of_neg hpm',
    Cursor.ancestors_of_mem_children hm, List.find?_cons_of_pos hpc]

/-- The way down to the start of a declaration goes through it, and what is below it there starts
where it does. -/
theorem find?_of_start {p : Cursor → Bool} (hf : ∀ d ∈ (Cursor.root f.tree).subtree, d.Spaced)
    (hc : c ∈ (Cursor.root f.tree).subtree) (hwidth : c.start < c.stop)
    (hempty : ∀ e ∈ (Cursor.root f.tree).subtree, ¬ (e.start = c.start ∧ e.stop = c.start))
    (hpc : p c = true) (hpi : ∀ e ∈ c.inside, p e = true → e.start ≠ c.start) :
    (Cursor.smallestAt c.start (.root f.tree) ::
      (Cursor.smallestAt c.start (.root f.tree)).ancestors).find? p = some c := by
  have hdown : Cursor.smallestAt c.start (.root f.tree) = Cursor.smallestAt c.start c :=
    Cursor.smallestAt_eq_of_covers hf hempty hc (Nat.le_refl _) hwidth
  have hbelow : ∀ d ∈ c.subtree, d.Spaced := fun d hd => hf d (Cursor.mem_subtree_trans hc hd)
  have hinside : ∀ e ∈ c.inside, e.start ≤ c.start → p e = false := by
    intro e he hle
    have hec : e ∈ c.subtree := Cursor.subtree_eq c ▸ List.mem_cons_of_mem c he
    have hge : c.start ≤ e.start := (Cursor.within_of_mem_subtree hbelow hec).1
    by_contra hpe
    exact hpi e he (by simpa using hpe) (Nat.le_antisymm hle hge)
  rw [hdown, Cursor.find?_smallestAt p c hinside, List.find?_cons_of_pos hpc]

/-- The offset of a declaration that is alone there leads back to it. -/
theorem declarationAt_navigationOffset (hf : f.WellNested)
    (hc : c ∈ (Cursor.root f.tree).subtree) (hdecl : IsDeclaration (f.node c))
    (hsole : (f.node c).SoleAt (navigationOffset (f.node c))) :
    f.declarationAt (navigationOffset (f.node c)) = some (f.node c) := by
  have hspaced : ∀ d ∈ (Cursor.root f.tree).subtree, d.Spaced := fun d hd =>
    hf.spaced (f.node d) (mem_nodes.mpr hd)
  let p (e : Cursor) : Bool := decide (IsDeclaration (f.node e))
  have hpc : p c = true := decide_eq_true hdecl
  have hempty : ∀ e ∈ (Cursor.root f.tree).subtree,
      ¬ (e.start = navigationOffset (f.node c) ∧ e.stop = navigationOffset (f.node c)) :=
    fun e he => hsole.no_empty (f.node e) (mem_nodes.mpr he)
  have hroot : c.stop ≤ f.length :=
    Nat.le_trans (Cursor.within_of_mem_subtree hspaced hc).2 hf.within
  have hnav : navigationOffset (f.node c) =
      (((f.node c).dialect.nameNode c).map Cursor.start).getD c.start := rfl
  cases hname : (f.node c).dialect.nameNode c with
  | none =>
    -- the offset is where the declaration itself starts
    rw [hname] at hnav
    have hnav : navigationOffset (f.node c) = c.start := hnav
    rw [hnav] at hempty ⊢
    have hwidth : c.start < c.stop := hsole.width
    have hfind := find?_of_start (p := p) hspaced hc hwidth hempty hpc
      fun e he hpe => hsole.unnamed hname e he (of_decide_eq_true hpe)
    rw [declarationAt_eq_find? (Nat.le_trans (Nat.le_of_lt hwidth) hroot), hfind]
    rfl
  | some m =>
    -- the offset is where the name starts, and the name is a child of the declaration
    rw [hname] at hnav
    have hnav : navigationOffset (f.node c) = m.start := hnav
    obtain ⟨hwidth, hquiet⟩ := hsole.named m hname
    have hm : m ∈ c.children := FileNode.nameNode_mem_children hdecl hname
    have hmc := (hspaced c hc).within m hm
    rw [hnav] at hempty ⊢
    have hfind := find?_of_name (p := p) hspaced hc hm rfl hwidth hempty hpc
      fun e he => decide_eq_false (hquiet e he)
    have hle : m.start ≤ f.length :=
      Nat.le_trans (Nat.le_of_lt hwidth) (Nat.le_trans hmc.2 hroot)
    rw [declarationAt_eq_find? hle, hfind]
    rfl

/-- In a well nested file the offset of a record leads back to the declaration of the record, and
so to the record, where nothing else is declared at that offset. If this holds of all records of
the file, no two of them have the same offset. -/
theorem declarationAt_offset_of_mem_records (settings : AttributeSettings)
    (hf : f.WellNested) :
    (records settings f.root).map Prod.snd = f.descriptions settings ∧
      (∀ n d, (n, d) ∈ records settings f.root → n.SoleAt d.offset →
        f.declarationAt d.offset = some n ∧ f.describeAt settings d.offset = .ok (some d) ∧
          ∀ t path, FileTree.loadSource t path = .ok f →
            t.describeAt settings path d.offset none = .ok (some d)) ∧
      ((∀ n d, (n, d) ∈ records settings f.root → n.SoleAt d.offset) →
        ((f.descriptions settings).map Description.offset).Nodup) := by
  have hback : ∀ n d, (n, d) ∈ records settings f.root → n.SoleAt d.offset →
      f.declarationAt d.offset = some n := by
    intro n d hd hsole
    obtain ⟨hn, hhere⟩ := (mem_records settings).mp hd
    obtain ⟨c, hc, rfl⟩ := exists_cursor_of_mem_preorder hn
    have hrecord := (record?_eq_some_iff settings).mpr hhere
    have hdecl := (isDeclaration_and_enclosed_of_record? settings hrecord).1
    rw [offset_of_record? settings hrecord] at hsole ⊢
    exact declarationAt_navigationOffset hf hc hdecl hsole
  refine ⟨map_snd_records settings f.root, fun n d hd hsole => ?_, fun hall => ?_⟩
  · have hdeclaration := hback n d hd hsole
    have hat : f.describeAt settings d.offset = .ok (some d) :=
      (describeAt_eq_some_iff settings).mpr ⟨n, hdeclaration, ((mem_records settings).mp hd).2⟩
    refine ⟨hdeclaration, hat, fun t path ht => ?_⟩
    rw [FileTree.describeAt_of_loadSource settings d.offset ht, hat]
    rfl
  · have hnodes : (records settings f.root).Pairwise fun a b => a.1 ≠ b.1 := by
      have hsub : ((records settings f.root).map Prod.fst).Sublist (preorder f.root) := by
        rw [map_fst_records]
        exact List.filter_sublist
      exact List.pairwise_map.mp (hsub.nodup f.root.nodup_preorder)
    rw [descriptions, ← map_snd_records, List.map_map, List.Nodup, List.pairwise_map]
    -- two records of one offset lead to the one declaration that is found there
    refine hnodes.imp_of_mem fun {a b} ha hb hne heq => hne ?_
    have hab : a.2.offset = b.2.offset := heq
    have hfirst := hback a.1 a.2 ha (hall a.1 a.2 ha)
    have hsecond := hback b.1 b.2 hb (hall b.1 b.2 hb)
    rw [hab] at hfirst
    exact Option.some.inj (hfirst.symm.trans hsecond)

end SourceFile

/-- The records of the method and of the lambda in it lead back to their declarations. -/
theorem declarationAt_offset_of_mem_records_taskFile :
    taskFile.WellNested ∧
      (∀ n d, (n, d) ∈ records {} taskFile.root → n.SoleAt d.offset) ∧
      (∀ n d, (n, d) ∈ records {} taskFile.root → taskFile.describeAt {} d.offset = .ok (some d)) ∧
      ((taskFile.descriptions {}).map Description.offset).Nodup := by
  have hnested : taskFile.WellNested := by
    refine ⟨?_, by decide +kernel⟩
    rw [SourceFile.nodes_eq_walk]
    decide +kernel
  have hall : ∀ n ∈ preorder taskFile.root, IsDeclaration n → n.SoleAt (navigationOffset n) := by
    rw [SourceFile.preorder_root_eq_walk]
    decide +kernel
  have hsole : ∀ n d, (n, d) ∈ records {} taskFile.root → n.SoleAt d.offset := by
    intro n d hd
    obtain ⟨hn, hhere⟩ := (mem_records {}).mp hd
    have hrecord := (record?_eq_some_iff {}).mpr hhere
    rw [offset_of_record? {} hrecord]
    exact hall n hn (isDeclaration_and_enclosed_of_record? {} hrecord).1
  have hback := SourceFile.declarationAt_offset_of_mem_records {} hnested
  exact ⟨hnested, hsole, fun n d hd => (hback.2.1 n d hd (hsole n d hd)).2.1, hback.2.2 hsole⟩

end DeclScribe
