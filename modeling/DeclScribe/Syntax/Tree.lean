/-!
Concrete syntax trees, as a parser of the language makes them.
-/

namespace DeclScribe.Syntax

/-- The roles of children that matter here. -/
inductive Field where
  | name
  | body
  | parameters
  | type
  | dimensions
deriving DecidableEq, Repr

/-- What is known of a node but for its children. A named node stands for a rule of the grammar, an
unnamed one for a token whose kind is its text. `start` and `stop` are byte offsets into the source;
`fields` are the roles that the node has in its parent. -/
structure Label where
  kind : String
  named : Bool
  start : Nat
  stop : Nat
  fields : List Field
deriving DecidableEq, Repr

inductive Tree where
  | node (label : Label) (children : List Tree)
deriving Repr

namespace Tree

def label : Tree → Label
  | node l _ => l

def children : Tree → List Tree
  | node _ ts => ts

def leaf (label : Label) : Tree := node label []

instance : Inhabited Tree := ⟨leaf ⟨"", false, 0, 0, []⟩⟩

theorem sizeOf_lt_of_mem_children {c t : Tree} (h : c ∈ t.children) : sizeOf c < sizeOf t := by
  cases t with
  | node l ts =>
    have := List.sizeOf_lt_of_mem (show c ∈ ts from h)
    simp only [node.sizeOf_spec]
    omega

/-- Puts a row in front of the trees that follow it: the ones a level deeper are its children. -/
def addRow (row : Nat × Label) (later : List (Nat × Tree)) : List (Nat × Tree) :=
  let isChild := fun (t : Nat × Tree) => t.1 == row.1 + 1
  (row.1, node row.2 ((later.takeWhile isChild).map (·.2))) :: later.dropWhile isChild

/-- The tree whose nodes are listed with their depths, every node before what is below it. -/
def ofRows? (rows : List (Nat × Label)) : Option Tree :=
  match rows.foldr addRow [] with
  | [(0, t)] => some t
  | _ => none

end Tree

end DeclScribe.Syntax
