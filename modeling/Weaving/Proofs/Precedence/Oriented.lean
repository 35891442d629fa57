import Weaving.Advisor.Precedence
import Weaving.Proofs.Precedence.Extension

/-! Oriented comparisons. A comparison that answers the opposite when it is asked the other way round puts
the same constraints on elements wherever they stand. A list in which the placed elements stand in order,
in front of those that wait for each other, is then left as it is; and sorting makes such a list. -/
namespace Weaving

namespace Sorting

variable {α : Type} {compare : α → α → Ordering} [Std.OrientedCmp compare] {xs placed left : List α}

theorem constrains_eq_true_iff {i j : Nat} : constrains compare xs i j = true ↔
    ∃ x y, xs[i]? = some x ∧ xs[j]? = some y ∧ compare x y = .lt := by
  constructor
  · intro h
    cases constrains_iff.mp h with
    | forward hi hj _ hless => exact ⟨_, _, hi, hj, hless⟩
    | backward hi hj _ hgreater => exact ⟨_, _, hj, hi, Std.OrientedCmp.lt_of_gt hgreater⟩
  · rintro ⟨x, y, hi, hj, hless⟩
    exact constrains_of_lt hi hj hless (Std.OrientedCmp.gt_of_lt hless)

/-- The placed elements stand in order and wait for none of the others, and each of the others waits
for another of the others. -/
structure Arranged (compare : α → α → Ordering) (placed left : List α) : Prop where
  ordered : placed.Pairwise fun x y => compare y x ≠ .lt
  ahead : ∀ x ∈ placed, ∀ y ∈ left, compare y x ≠ .lt
  blocked : ∀ y ∈ left, ∃ x ∈ left, compare x y = .lt

/-- Sorting arranges a list. -/
theorem arranged_sorted (compare : α → α → Ordering) [Std.OrientedCmp compare] (xs : List α) :
    Arranged compare (Sorting.placed compare xs) (leftOver compare xs) := by
  have hnot {x y : α} (h : ¬(compare y x = .lt ∧ compare x y = .gt)) : compare y x ≠ .lt :=
    fun hlt => h ⟨hlt, Std.OrientedCmp.gt_of_lt hlt⟩
  obtain ⟨hordered, hahead⟩ := placed_in_order compare xs
  refine ⟨hordered.imp hnot, fun x hx y hy => hnot (hahead x hx y hy), fun y hy => ?_⟩
  obtain ⟨j, hj, hy⟩ := List.mem_filterMap.mp hy
  obtain ⟨i, hi, hbefore⟩ := exists_before_of_left hj
  obtain ⟨x, y', hx, hy', hlt⟩ := constrains_eq_true_iff.mp hbefore
  obtain rfl : y = y' := Option.some.inj (hy.symm.trans hy')
  exact ⟨x, List.mem_filterMap.mpr ⟨i, hi, hx⟩, hlt⟩

/-- An element that waits for its like is left over. -/
theorem mem_leftOver_of_blocked (blocked : α → Prop)
    (h : ∀ y ∈ xs, blocked y → ∃ x ∈ xs, blocked x ∧ compare x y = .lt) {y : α} (hy : y ∈ xs)
    (hblocked : blocked y) : y ∈ leftOver compare xs := by
  obtain ⟨j, hj⟩ := List.mem_iff_getElem?.mp hy
  refine List.mem_filterMap.mpr ⟨j, ?_, hj⟩
  refine mem_left_of_blocked (fun i => ∃ x, xs[i]? = some x ∧ blocked x) (fun k _ hk => ?_)
    (mem_range_of_getElem? hj) ⟨y, hj, hblocked⟩
  obtain ⟨z, hz, hbz⟩ := hk
  obtain ⟨x, hx, hbx, hlt⟩ := h z (List.mem_of_getElem? hz) hbz
  obtain ⟨i, hi⟩ := List.mem_iff_getElem?.mp hx
  exact ⟨i, mem_range_of_getElem? hi, ⟨x, hi, hbx⟩,
    constrains_eq_true_iff.mpr ⟨x, z, hi, hz, hlt⟩⟩

/-- The positions of an arranged list are placed as they stand. -/
theorem Arranged.placeFirst_eq {front back : List Nat}
    (h : Arranged compare (front.filterMap fun i => xs[i]?) (back.filterMap fun i => xs[i]?))
    (hback : ∀ j ∈ back, j < xs.length) :
    placeFirst (constrains compare xs) (front ++ back) = (front, back) := by
  have hfalse {i j : Nat} (hij : ∀ x, xs[i]? = some x → ∀ y, xs[j]? = some y → compare y x ≠ .lt) :
      constrains compare xs j i = false := by
    rw [← Bool.not_eq_true]
    intro hji
    obtain ⟨y, x, hy, hx, hlt⟩ := constrains_eq_true_iff.mp hji
    exact hij x hx y hy hlt
  refine placeFirst_append (fun i => hfalse fun x hx y hy => ?_) ?_ (fun i hi j hj => ?_)
    fun j hj => ?_
  · obtain rfl : x = y := Option.some.inj (hx.symm.trans hy)
    have heq : compare x x = .eq := Std.ReflCmp.compare_self
    simp [heq]
  · exact (List.pairwise_filterMap.mp h.ordered).imp hfalse
  · exact hfalse fun x hx y hy => h.ahead x (List.mem_filterMap.mpr ⟨i, hi, hx⟩) y
      (List.mem_filterMap.mpr ⟨j, hj, hy⟩)
  · obtain ⟨y, hy⟩ : ∃ y, xs[j]? = some y := ⟨_, List.getElem?_eq_getElem (hback j hj)⟩
    obtain ⟨x, hx, hlt⟩ := h.blocked y (List.mem_filterMap.mpr ⟨j, hj, hy⟩)
    obtain ⟨i, hi, hx⟩ := List.mem_filterMap.mp hx
    exact ⟨i, hi, constrains_eq_true_iff.mpr ⟨x, y, hx, hy, hlt⟩⟩

/-- Sorting leaves an arranged list as it is. -/
theorem Arranged.topologicalSort_eq (h : Arranged compare placed left) :
    topologicalSort compare (placed ++ left) = ⟨placed ++ left, left.length⟩ := by
  let front := List.range placed.length
  let back := (List.range left.length).map (placed.length + ·)
  have hrange : List.range (placed ++ left).length = front ++ back := by
    rw [List.length_append, List.range_add]
  have hfront : front.filterMap (fun i => (placed ++ left)[i]?) = placed := by
    refine (List.filterMap_congr fun i hi => ?_).trans (filterMap_range_getElem? placed)
    exact List.getElem?_append_left (List.mem_range.mp hi)
  have hback : back.filterMap (fun i => (placed ++ left)[i]?) = left := by
    rw [List.filterMap_map]
    refine (List.filterMap_congr fun i _ => ?_).trans (filterMap_range_getElem? left)
    exact (List.getElem?_append_right (Nat.le_add_right ..)).trans (by simp)
  have hplace : placeFirst (constrains compare (placed ++ left)) (front ++ back) = (front, back) := by
    refine Arranged.placeFirst_eq (by rwa [hfront, hback]) fun j hj => ?_
    rw [← List.mem_range, hrange]
    exact List.mem_append_right _ hj
  simp only [topologicalSort, hrange, hplace, List.filterMap_append, hfront, hback]
  simp [back]

/-- Sorting leaves a list as it is in which nothing stands behind what it must precede. -/
theorem topologicalSort_of_ordered (h : xs.Pairwise fun x y => compare y x ≠ .lt) :
    topologicalSort compare xs = ⟨xs, 0⟩ := by
  have harranged : Arranged compare xs [] := ⟨h, by simp, by simp⟩
  simpa using harranged.topologicalSort_eq

/-- Without a cycle, sorting leaves nothing behind what it must precede. -/
theorem ordered_of_acyclic (h : Acyclic (Constraint compare xs)) :
    (topologicalSort compare xs).items.Pairwise fun x y => compare y x ≠ .lt := by
  have hleft : leftOver compare xs = [] := by
    rw [← List.length_eq_zero_iff, ← stuck_eq]
    exact (acyclic_iff_stuck compare xs).mp h
  rw [items_eq, hleft, List.append_nil]
  exact (arranged_sorted compare xs).ordered

/-- A sorted list is sorted already. -/
theorem topologicalSort_items (compare : α → α → Ordering) [Std.OrientedCmp compare] (xs : List α) :
    topologicalSort compare (topologicalSort compare xs).items = topologicalSort compare xs := by
  rw [items_eq, (arranged_sorted compare xs).topologicalSort_eq, ← items_eq, ← stuck_eq]

end Sorting

namespace Placement

theorem precedence_swap (x y : Placement) : y.precedence x = (x.precedence y).swap := by
  unfold precedence
  rw [Bool.or_comm]
  split <;> exact Std.OrientedOrd.eq_swap

end Placement

namespace Advisor

theorem precedence_swap (a b : Advisor) : precedence b a = (precedence a b).swap := by
  have hrank : compare b.rank a.rank = (compare a.rank b.rank).swap := Std.OrientedOrd.eq_swap
  unfold precedence
  rw [hrank]
  cases compare a.rank b.rank with
  | lt => rfl
  | gt => rfl
  | eq =>
    cases a.placement with
    | none => cases b.placement <;> rfl
    | some x =>
      cases b.placement with
      | none => rfl
      | some y =>
        by_cases haspect : x.aspect = y.aspect
        · simp [haspect, Placement.precedence_swap x y]
        · simp [haspect, Ne.symm haspect]

instance : Std.OrientedCmp precedence := ⟨precedence_swap _ _⟩

instance {α : Type} (advisor : α → Advisor) :
    Std.OrientedCmp fun x y => precedence (advisor x) (advisor y) := ⟨precedence_swap _ _⟩

/-- Sorting advisors that have been sorted changes nothing, also where some of them wait for each other. -/
theorem sort_sort (as : List Advisor) : sort (sort as).items = sort as :=
  Sorting.topologicalSort_items precedence as

end Advisor
end Weaving
