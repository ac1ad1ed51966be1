import DeclScribe.Proofs.Syntax.Pruned
import DeclScribe.Syntax.Dialect

/-!
Comments in syntax trees. They may stand between any two children of a node, so a search among
children by kind or by role has to come to the same in a tree that comments are taken out of.
-/

namespace DeclScribe.Syntax

/-- Whether a kind of nodes is one of comments. -/
def namesComment (kind : String) : Bool := "comment".toList.isSuffixOf kind.toList

@[simp] theorem typeTextOf_kept (gone : Cursor → Bool) (source : String) (c : Cursor) :
    typeTextOf source (c.kept gone) = typeTextOf source c := by
  rw [typeTextOf, Cursor.text_kept, typeTextOf]

/-- A comment is a named node without children of such a kind. -/
def Cursor.isComment (c : Cursor) : Bool :=
  c.named && c.focus.children.isEmpty && namesComment c.kind

/-- A set of comments. No rule of a grammar names a role for a comment. -/
def OnlyComments (gone : Cursor → Bool) : Prop :=
  ∀ c, gone c = true → c.isComment = true ∧ c.focus.label.fields = []

namespace OnlyComments

open Cursor

variable {gone : Cursor → Bool} (h : OnlyComments gone)
include h

theorem children_eq_nil {c : Cursor} (hc : gone c = true) : c.children = [] := by
  have hcomment := (h c hc).1
  simp only [isComment, Bool.and_eq_true, List.isEmpty_iff] at hcomment
  simp [children, hcomment.1.2]

theorem descent_children_eq_nil {c : Cursor} (hc : gone c = true) : Descent.children c = [] := by
  change c.children.filter Cursor.named = []
  rw [h.children_eq_nil hc, List.filter_nil]

theorem namesComment_kind {c : Cursor} (hc : gone c = true) : namesComment c.kind = true := by
  have hcomment := (h c hc).1
  simp only [isComment, Bool.and_eq_true] at hcomment
  exact hcomment.2

theorem named {c : Cursor} (hc : gone c = true) : c.named = true := by
  have hcomment := (h c hc).1
  simp only [isComment, Bool.and_eq_true] at hcomment
  exact hcomment.1.1

theorem stays_of_kind {c : Cursor} {k : String} (hk : namesComment k = false) (hc : c.kind = k) :
    gone c = false := by
  refine Bool.eq_false_iff.mpr fun hgone => ?_
  have hcomment := h.namesComment_kind hgone
  rw [hc, hk] at hcomment
  cases hcomment

theorem stays_of_kinds {c : Cursor} {ks : List String} (hks : ∀ k ∈ ks, namesComment k = false)
    (hc : ks.contains c.kind = true) : gone c = false :=
  h.stays_of_kind (hks c.kind (List.contains_iff_mem.mp hc)) rfl

theorem contains_kind {c : Cursor} (ks : List String) (hks : ∀ k ∈ ks, namesComment k = false)
    (hc : gone c = true) : ks.contains c.kind = false := by
  refine Bool.eq_false_iff.mpr fun hmem => ?_
  rw [h.stays_of_kinds hks hmem] at hc
  cases hc

theorem stays_of_field {c : Cursor} {f : Field} (hc : c.focus.label.fields.contains f = true) :
    gone c = false := by
  refine Bool.eq_false_iff.mpr fun hgone => ?_
  rw [(h c hgone).2] at hc
  cases hc

section Search

theorem childByField_kept (c : Cursor) (f : Field) :
    (kept gone c).childByField f = (c.childByField f).map (kept gone) := by
  unfold childByField
  rw [children_kept]
  exact find?_kept_of_forall (fun d => by rw [label_kept]) fun d hd => h.stays_of_field hd

theorem bind_childByField_kept (o : Option Cursor) (f : Field) :
    (o.map (kept gone)).bind (·.childByField f) =
      (o.bind (·.childByField f)).map (kept gone) := by
  rw [Option.bind_map, Option.map_bind]
  congr 1
  funext c
  exact h.childByField_kept c f

theorem childOfKind_kept {k : String} (hk : namesComment k = false) (c : Cursor) :
    (kept gone c).childOfKind k = (c.childOfKind k).map (kept gone) := by
  unfold childOfKind
  rw [children_kept]
  refine find?_kept_of_forall (fun d => by rw [kind_kept]) fun d hd => ?_
  exact h.stays_of_kind hk (beq_iff_eq.mp hd)

theorem hasChildOfKind_kept {k : String} (hk : namesComment k = false) (c : Cursor) :
    (kept gone c).hasChildOfKind k = c.hasChildOfKind k := by
  rw [hasChildOfKind, h.childOfKind_kept hk, Option.isSome_map, hasChildOfKind]

theorem childrenOfKinds_kept {ks : List String} (hks : ∀ k ∈ ks, namesComment k = false)
    (c : Cursor) :
    (kept gone c).childrenOfKinds ks = (c.childrenOfKinds ks).map (kept gone) := by
  unfold childrenOfKinds
  rw [namedChildren_kept]
  exact filter_kept (fun d => by rw [kind_kept]) fun d hd => h.stays_of_kinds hks hd

/-- The named children of the pruned tree among which a search by kinds goes. -/
theorem find?_namedChildren_kept (ks : List String) (hks : ∀ k ∈ ks, namesComment k = false)
    (c : Cursor) : ((kept gone c).namedChildren.find? fun d => ks.contains d.kind) =
      (c.namedChildren.find? fun d => ks.contains d.kind).map (kept gone) := by
  rw [namedChildren_kept]
  exact find?_kept_of_forall (fun d => by rw [kind_kept]) fun d hd => h.stays_of_kinds hks hd

/-- What is found behind a colon may be a comment; if it stays, it is found again. -/
theorem afterColon_kept {c : Cursor} (hstay : ∀ d, c.afterColon = some d → gone d = false) :
    (kept gone c).afterColon = c.afterColon.map (kept gone) := by
  have hcolon : ∀ d : Cursor, (d.kind != ":") = false → gone d = false := by
    intro d hd
    exact h.stays_of_kind (k := ":") (by decide) (by simpa using hd)
  unfold afterColon at hstay ⊢
  rw [children_kept, dropWhile_kept (fun d => by rw [kind_kept]) hcolon]
  exact find?_kept (fun d => by rw [kind_kept, named_kept]) hstay

end Search

end OnlyComments

section Qualified

variable (kind : Cursor → NodeKind) {name : Cursor → Option String}
  (package : Cursor → Option String)

/-- Nodes that agree on kinds, names and packages give the same parts of a qualified name. -/
theorem outerNames_map {image : Cursor → Cursor} {as : List Cursor}
    (h : ∀ a ∈ as, kind (image a) = kind a ∧ name (image a) = name a ∧
      package (image a) = package a) :
    outerNames kind name package (as.map image) = outerNames kind name package as := by
  induction as with
  | nil => rfl
  | cons a as ih =>
    obtain ⟨⟨hkind, hname, hpackage⟩, has⟩ := List.forall_mem_cons.mp h
    rw [List.map_cons, outerNames, outerNames, hkind, hname, hpackage, ih has]

theorem qualify_kept {gone : Cursor → Bool} {c : Cursor}
    (hname : name (Cursor.kept gone c) = name c)
    (h : ∀ a ∈ c.ancestors, kind (Cursor.kept gone a) = kind a ∧
      name (Cursor.kept gone a) = name a ∧ package (Cursor.kept gone a) = package a) :
    qualify kind name package (Cursor.kept gone c) = qualify kind name package c := by
  rw [qualify, qualify, hname, Cursor.ancestors_kept, outerNames_map kind package h]

end Qualified

end DeclScribe.Syntax
