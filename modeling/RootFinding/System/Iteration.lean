import RootFinding.Search
import RootFinding.Vec

/-!
# Iterations on several unknowns

What the methods for systems share: vectors as points, a check of the shape of each answer, and an
ending that tells whether the test was passed.
-/
namespace RootFinding

structure Ending (Point : Type) where
  point : Point
  converged : Bool
  iterations : Nat
  evaluations : Nat

namespace Iteration
variable {α Point Site Slope Detail : Type}

abbrev Searching (α Site Slope Detail : Type) : Type :=
  Search (List α) (Grid α) Site Slope Detail (Ending (List α))

/-- Ask for the value at a point; it has to be a vector of the same length. -/
def measure (x : List α) (next : List α → Searching α Site Slope Detail) :
    Searching α Site Slope Detail :=
  .evaluate x fun y =>
    if y.shape = [x.length] then next y.entries else .fail (.resultShape [x.length] y.shape)

def succeed {Reading : Type} (x : Point) (iterations evaluations : Nat) :
    Search Point Reading Site Slope Detail (Ending Point) :=
  .report .converged (.done ⟨x, true, iterations, evaluations⟩)

def giveUp {Reading : Type} (x : Point) (iterations evaluations : Nat) :
    Search Point Reading Site Slope Detail (Ending Point) :=
  .report .exhausted (.done ⟨x, false, iterations, evaluations⟩)

end Iteration
end RootFinding
