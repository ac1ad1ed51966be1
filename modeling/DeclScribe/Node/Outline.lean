import DeclScribe.Node.Basic

/-!
Outlines: symbol trees that are built up node by node. An outline is grown by edits; a node is
named by its place in the order of creation, and node 0 is the root.
-/

namespace DeclScribe

structure OutlineEntry where
  kind : NodeKind
  parent : Option Nat := none
  children : List Nat := []
  name : Option String := none
  qualifiedName : Option String := none
  modifiers : List String := []
  isConstructor : Bool := false
  isInterface : Bool := false
  typeText : Option String := none
  text : String := ""
deriving DecidableEq, Repr

/-- A symbol tree, and the file that it describes where that is known. -/
structure Outline where
  origin : Option FileOrigin
  entries : List OutlineEntry
deriving DecidableEq, Repr

/-- A step in building an outline. A new node goes under an existing one, behind its other
children. -/
inductive OutlineEdit where
  | add (parent : Nat) (kind : NodeKind)
  | addClass (parent : Nat) (name : String) (qualifiedName : Option String)
  | addMethod (parent : Nat) (name : String) (returnType : Option String)
  | addLambda (parent : Nat) (type : Option String)
  | addParameter (owner : Nat) (name : Option String) (type : String)
  | setModifiers (node : Nat) (modifiers : List String)
  | setText (node : Nat) (text : String)
  | markConstructor (node : Nat)
  | markInterface (node : Nat)
deriving DecidableEq, Repr

namespace Outline

def empty (origin : Option FileOrigin) : Outline := ⟨origin, [{ kind := .other }]⟩

def size (t : Outline) : Nat := t.entries.length

def modify (t : Outline) (node : Nat) (f : OutlineEntry → OutlineEntry) : Outline :=
  { t with entries := t.entries.modify node f }

/-- The outline with a new entry under the node that the entry names as its parent. -/
def insert (t : Outline) (parent : Nat) (entry : OutlineEntry) : Outline :=
  let grown := t.modify parent fun e => { e with children := e.children ++ [t.size] }
  { grown with entries := grown.entries ++ [{ entry with parent := some parent }] }

def apply (t : Outline) : OutlineEdit → Outline
  | .add parent kind => t.insert parent { kind }
  | .addClass parent name qualifiedName =>
    t.insert parent { kind := .type, name := some name, qualifiedName }
  | .addMethod parent name returnType =>
    t.insert parent { kind := .method, name := some name, typeText := returnType }
  | .addLambda parent type => t.insert parent { kind := .lambda, typeText := type }
  | .addParameter owner name type =>
    t.insert owner { kind := .parameter, name, typeText := some type }
  | .setModifiers node modifiers => t.modify node fun e => { e with modifiers }
  | .setText node text => t.modify node fun e => { e with text }
  | .markConstructor node => t.modify node fun e => { e with isConstructor := true }
  | .markInterface node => t.modify node fun e => { e with isInterface := true }

def build (origin : Option FileOrigin) (edits : List OutlineEdit) : Outline :=
  edits.foldl apply (empty origin)

end Outline

def OutlineEdit.target : OutlineEdit → Nat
  | .add n _ | .addClass n _ _ | .addMethod n _ _ | .addLambda n _ | .addParameter n _ _
  | .setModifiers n _ | .setText n _ | .markConstructor n | .markInterface n => n

structure OutlineNode where
  outline : Outline
  index : Nat
deriving DecidableEq, Repr

namespace OutlineNode

/-- The entry of a node. A node that the outline does not have is an empty one of no kind. -/
def entry (n : OutlineNode) : OutlineEntry := n.outline.entries.getD n.index { kind := .other }

def sibling (n : OutlineNode) (index : Nat) : OutlineNode := ⟨n.outline, index⟩

/-- The nodes under a node. A child was created after its parent. -/
def children (n : OutlineNode) : List OutlineNode :=
  (n.entry.children.filter (n.index < ·)).map n.sibling

/-- The places of the nodes above a node, from its parent to the root. A parent was created before
its children. -/
def placesAbove (entries : List OutlineEntry) (index : Nat) : List Nat :=
  match entries[index]?.bind OutlineEntry.parent with
  | none => []
  | some p => if p < index then p :: placesAbove entries p else []

def ancestors (n : OutlineNode) : List OutlineNode :=
  (placesAbove n.outline.entries n.index).map n.sibling

theorem entry_children_eq_nil {n : OutlineNode} (h : n.outline.size ≤ n.index) :
    n.entry.children = [] := by
  simp only [Outline.size] at h
  simp [entry, List.getD_eq_getElem?_getD, List.getElem?_eq_none h]

def remaining (n : OutlineNode) : Nat := n.outline.size - n.index

theorem remaining_lt_of_mem_children {c n : OutlineNode} (h : c ∈ n.children) :
    c.remaining < n.remaining := by
  simp only [children, List.mem_map, List.mem_filter] at h
  obtain ⟨i, ⟨hi, hlt⟩, rfl⟩ := h
  have hn : n.index < n.outline.size := by
    refine Nat.lt_of_not_le fun hle => ?_
    simp [entry_children_eq_nil hle] at hi
  simp only [remaining, sibling, decide_eq_true_eq] at hlt ⊢
  omega

instance : SourceNode OutlineNode where
  children := children
  wellFounded :=
    Subrelation.wf (fun h => remaining_lt_of_mem_children h)
      (InvImage.wf remaining Nat.lt_wfRel.wf)
  kind n := n.entry.kind
  ancestors := ancestors
  name n := n.entry.name
  qualifiedName n := n.entry.qualifiedName
  modifiers n := n.entry.modifiers
  isConstructor n := n.entry.isConstructor
  isInterface n := n.entry.kind == .type && n.entry.isInterface
  parameters n := n.children.filter fun c => c.entry.kind = .parameter
  typeText n := n.entry.typeText
  text n := n.entry.text
  origin n := n.outline.origin
  offset n := n.index
  navigationOffset n := n.index

end OutlineNode

end DeclScribe
