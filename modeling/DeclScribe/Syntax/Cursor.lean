import DeclScribe.Node.Descent
import DeclScribe.Syntax.Tree
import DeclScribe.Text.Bytes

/-!
Cursors: nodes of a syntax tree together with the way to them. Two cursors into one tree are at the
same node when their places are equal.
-/

namespace DeclScribe.Syntax

/-- A node with what is above it: for every level, nearest first, the number of the child that the
way takes and the tree whose child it is. -/
structure Cursor where
  focus : Tree
  above : List (Nat × Tree)
deriving Repr, Inhabited

namespace Cursor

def root (t : Tree) : Cursor := ⟨t, []⟩

/-- The numbers of the children on the way, from the node up. -/
def place (c : Cursor) : List Nat := c.above.map (·.1)

/-- Whether two cursors into one tree are at the same node. -/
def isAt (c d : Cursor) : Bool := c.place == d.place

def kind (c : Cursor) : String := c.focus.label.kind

def named (c : Cursor) : Bool := c.focus.label.named

def start (c : Cursor) : Nat := c.focus.label.start

/-- The byte offset behind the node. -/
def stop (c : Cursor) : Nat := c.focus.label.stop

def text (source : String) (c : Cursor) : String := Text.slice source c.start c.stop

def covers (c : Cursor) (offset : Nat) : Bool := c.start ≤ offset && offset < c.stop

/-- The nodes above, from the parent to the root. -/
def ancestorsOf : List (Nat × Tree) → List Cursor
  | [] => []
  | (_, t) :: rest => ⟨t, rest⟩ :: ancestorsOf rest

def ancestors (c : Cursor) : List Cursor := ancestorsOf c.above

def parent (c : Cursor) : Option Cursor := c.ancestors.head?

def children (c : Cursor) : List Cursor :=
  c.focus.children.mapIdx fun i t => ⟨t, (i, c.focus) :: c.above⟩

def namedChildren (c : Cursor) : List Cursor := c.children.filter named

def childByField (c : Cursor) (f : Field) : Option Cursor :=
  c.children.find? fun d => d.focus.label.fields.contains f

def childOfKind (c : Cursor) (kind : String) : Option Cursor :=
  c.children.find? fun d => d.kind == kind

def hasChildOfKind (c : Cursor) (kind : String) : Bool := (c.childOfKind kind).isSome

def childrenOfKinds (c : Cursor) (kinds : List String) : List Cursor :=
  c.namedChildren.filter fun d => kinds.contains d.kind

/-- The first named child behind the first `:` among the children. -/
def afterColon (c : Cursor) : Option Cursor :=
  (c.children.dropWhile fun d => d.kind != ":").find? fun d => d.kind != ":" && d.named

theorem focus_mem_of_mem_children {d c : Cursor} (h : d ∈ c.children) :
    d.focus ∈ c.focus.children := by
  simp only [children, List.mem_mapIdx] at h
  obtain ⟨i, hi, rfl⟩ := h
  exact List.getElem_mem hi

theorem sizeOf_focus_lt {d c : Cursor} (h : d ∈ c.children) :
    sizeOf d.focus < sizeOf c.focus :=
  Tree.sizeOf_lt_of_mem_children (focus_mem_of_mem_children h)

/-- A walk goes through the named nodes. -/
instance : Descent Cursor where
  children := namedChildren
  wellFounded :=
    Subrelation.wf (fun h => sizeOf_focus_lt (List.mem_filter.mp h).1)
      (InvImage.wf (fun c : Cursor => sizeOf c.focus) Nat.lt_wfRel.wf)

/-- Whether a node ends behind an offset. A node without width ends behind its own offset. -/
def endsBehind (c : Cursor) (offset : Nat) : Bool :=
  offset < c.stop || (c.start == c.stop && offset == c.stop)

/-- The smallest node at an offset that is reached from `c`: down to the first child that ends
behind the offset, as long as it starts no later. -/
def smallestAt (offset : Nat) (c : Cursor) : Cursor :=
  match _h : c.children.find? (endsBehind · offset) with
  | none => c
  | some d => if d.start ≤ offset then smallestAt offset d else c
termination_by sizeOf c.focus
decreasing_by exact sizeOf_focus_lt (List.mem_of_find?_eq_some _h)

end Cursor

end DeclScribe.Syntax
