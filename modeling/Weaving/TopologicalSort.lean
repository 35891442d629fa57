import Weaving.Journal

/-! Sorting by constraints. A comparison that need not be transitive nor total puts constraints on the
elements of a list; the list is sorted by taking again and again the first element that no other
waiting element must precede. What is left when there is none keeps its order. -/
namespace Weaving

/-- Extends a relation on positions to an order: takes the first position that no other is before, as
long as there is one. The second list holds those that are left because they wait for each other. -/
def placeFirst (before : Nat → Nat → Bool) (waiting : List Nat) : List Nat × List Nat :=
  match h : waiting.find? fun i => waiting.all fun j => !before j i with
  | none => ([], waiting)
  | some i =>
    have : (waiting.erase i).length < waiting.length := by
      have hm := List.mem_of_find?_eq_some h
      have := List.length_erase_of_mem hm
      have := List.length_pos_of_mem hm
      omega
    let r := placeFirst before (waiting.erase i)
    (i :: r.1, r.2)
termination_by waiting.length

/-- The constraint that a comparison puts on two positions of a list, always comparing the element
that stands first with the other. -/
def constrains {α : Type} (compare : α → α → Ordering) (xs : List α) (i j : Nat) : Bool :=
  match xs[i]?, xs[j]? with
  | some x, some y =>
    if i < j then compare x y = .lt else if j < i then compare y x = .gt else false
  | _, _ => false

structure Sorted (α : Type) where
  items : List α
  /-- How many elements were left in input order because their constraints form a cycle. -/
  stuck : Nat
  deriving Repr

/-- Sorts by a comparison that need not be transitive nor total. -/
def topologicalSort {α : Type} (compare : α → α → Ordering) (xs : List α) : Sorted α :=
  let r := placeFirst (constrains compare xs) (List.range xs.length)
  ⟨(r.1 ++ r.2).filterMap fun i => xs[i]?, r.2.length⟩

namespace Sorted

/-- The warning that a sort leaves when it met a cycle. -/
def warnings {α : Type} (s : Sorted α) : List Entry :=
  if s.stuck = 0 then []
  else [.warn ("Precedence constraints form a cycle among " ++ toString s.stuck ++
    " elements, keeping their input order")]

end Sorted

end Weaving
