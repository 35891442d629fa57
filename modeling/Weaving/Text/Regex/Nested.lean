/-! Things read from a pattern together with how deeply their parts are nested. -/
namespace Weaving

structure Nested (α : Type) where
  value : α
  depth : Nat

namespace Nested

variable {α β : Type}

def leaf (a : α) : Nested α := ⟨a, 0⟩

/-- Something with one part. -/
def wrap (f : α → β) (x : Nested α) : Nested β := ⟨f x.value, x.depth + 1⟩

/-- Combines parts from the right, as deep as the deepest of them. -/
def fold (op : α → α → α) (x : Nested α) : List (Nested α) → Nested α
  | [] => x
  | y :: ys => ⟨op x.value (fold op y ys).value, max x.depth (fold op y ys).depth⟩

/-- Something with several parts; a single part is not nested for that. -/
def join (none : α) (op : α → α → α) : List (Nested α) → Nested α
  | [] => leaf none
  | [x] => x
  | x :: xs => wrap id (fold op x xs)

end Nested
end Weaving
