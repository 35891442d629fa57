import Weaving.Advisor
import Weaving.TopologicalSort

/-! Precedence. Two advisors are ordered by their ranks, and within one aspect by their declarations,
where advice that runs after the call goes the other way; all others are left in input order. -/
namespace Weaving

namespace Placement

def precedence (x y : Placement) : Ordering :=
  if x.kind.isAfter || y.kind.isAfter then compare y.declaration x.declaration
  else compare x.declaration y.declaration

end Placement

namespace Advisor

/-- The precedence of two advisors; the one that is less goes first. -/
def precedence (a b : Advisor) : Ordering :=
  match compare a.rank b.rank with
  | .eq => match a.placement, b.placement with
    | some x, some y => if x.aspect = y.aspect then x.precedence y else .eq
    | _, _ => .eq
  | o => o

def sort (as : List Advisor) : Sorted Advisor := topologicalSort precedence as

/-- Sorts anything by the advisors that belong to it. -/
def sortBy {α : Type} (advisor : α → Advisor) (xs : List α) : Sorted α :=
  topologicalSort (fun a b => precedence (advisor a) (advisor b)) xs

end Advisor
end Weaving
