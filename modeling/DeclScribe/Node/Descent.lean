/-!
Ways down. Every node has finitely many children and no way down is infinite, so the nodes below a
node can be listed and counted.
-/

namespace DeclScribe

/-- A structure of nodes with children. -/
class Descent (ν : Type) where
  children : ν → List ν
  /-- No way from child to child goes on forever. -/
  wellFounded : WellFounded fun child node => child ∈ children node

namespace Descent

variable {ν : Type} [Descent ν]

/-- A node and all nodes below it: a node stands before what is below it, and what is below a
child before the next child. -/
def preorder (n : ν) : List ν :=
  n :: (children n).attach.flatMap fun ⟨c, _⟩ => preorder c
termination_by wellFounded.wrap n

theorem preorder_eq (n : ν) : preorder n = n :: (children n).flatMap preorder := by
  rw [preorder]
  simp

def totalWeight (ns : List ν) : Nat := (ns.flatMap preorder).length

/-- Replacing the first node of a list by its children makes the list lighter. -/
theorem totalWeight_children_lt (n : ν) (ns : List ν) :
    totalWeight (children n ++ ns) < totalWeight (n :: ns) := by
  simp [totalWeight, preorder_eq n]

theorem totalWeight_tail_lt (n : ν) (ns : List ν) : totalWeight ns < totalWeight (n :: ns) := by
  simp only [totalWeight, List.flatMap_cons, List.length_append, preorder_eq n, List.length_cons]
  omega

end Descent

end DeclScribe
