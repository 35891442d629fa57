import Weaving.Proofs.Precedence.Counting

/-! Linear extensions. The constraints that a comparison puts on the positions of a list form a graph. If it
has no cycle, sorting goes through the positions in the first, position by position, of all orders that
respect the constraints; it leaves elements over just if there is a cycle. -/
namespace Weaving.Sorting

variable {α : Type} {compare : α → α → Ordering} {xs : List α}

/-- No position must in the end go before itself. -/
def Acyclic (constraint : Nat → Nat → Prop) : Prop := ∀ i, ¬Relation.TransGen constraint i i

/-- Whatever must go before something stands before it. -/
def Respects (constraint : Nat → Nat → Prop) (order : List Nat) : Prop :=
  ∀ i j, constraint i j → [i, j].Sublist order

/-- The positions of a list in the order in which sorting goes through them. -/
def order (compare : α → α → Ordering) (xs : List α) : List Nat :=
  let r := placeFirst (constrains compare xs) (List.range xs.length)
  r.1 ++ r.2

/-- In a list without repetition only one of two elements stands first. -/
theorem not_sublist_of_sublist {l : List Nat} (hl : l.Nodup) {i j : Nat} (h : [i, j].Sublist l) :
    ¬[j, i].Sublist l := by
  induction l with
  | nil => simp at h
  | cons k l ih =>
    obtain ⟨hk, hl⟩ := List.nodup_cons.mp hl
    intro h'
    cases h with
    | cons _ h =>
      cases h' with
      | cons _ h' => exact ih hl h h'
      | cons_cons _ h' => exact hk (h.subset (by simp))
    | cons_cons _ h =>
      cases h' with
      | cons _ h' => exact hk (h'.subset (by simp))
      | cons_cons _ h' => exact hk (h.subset (by simp))

theorem sublist_or_sublist {l : List Nat} {i j : Nat} (hne : i ≠ j) (hi : i ∈ l) (hj : j ∈ l) :
    [i, j].Sublist l ∨ [j, i].Sublist l := by
  obtain ⟨s, t, rfl⟩ := List.mem_iff_append.mp hi
  obtain hj | hj := List.mem_append.mp hj
  · exact .inr ((List.singleton_sublist.mpr hj).append (List.singleton_sublist.mpr (by simp)))
  · have hj : j ∈ t := (List.mem_cons.mp hj).resolve_left hne.symm
    exact .inl (((List.singleton_sublist.mpr hj).cons_cons i).trans (List.sublist_append_right s _))

/-- An order respects the constraints if nothing in it stands behind what it must precede. -/
theorem respects_iff_pairwise {l : List Nat} (hl : l.Perm (List.range xs.length)) :
    Respects (Constraint compare xs) l ↔ l.Pairwise fun i j => ¬Constraint compare xs j i := by
  rw [List.pairwise_iff_forall_sublist]
  constructor
  · intro h i j hij hji
    exact not_sublist_of_sublist (hl.nodup_iff.mpr List.nodup_range) hij (h j i hji)
  · intro h i j hij
    obtain ⟨hi, hj⟩ := hij.mem_range
    obtain hbefore | hbehind := sublist_or_sublist hij.ne (hl.mem_iff.mpr hi) (hl.mem_iff.mpr hj)
    · exact hbefore
    · exact absurd hij (h hbehind)

/-- What is found first in an ascending list is the least of what could be found. -/
theorem le_of_find? {p : Nat → Bool} {l : List Nat} (ascending : l.Pairwise (· < ·)) {i o : Nat}
    (hi : l.find? p = some i) (ho : o ∈ l) (hp : p o = true) : i ≤ o := by
  obtain ⟨-, front, back, rfl, hfront⟩ := List.find?_eq_some_iff_append.mp hi
  obtain hof | hob := List.mem_append.mp ho
  · have hnot := hfront o hof
    rw [hp] at hnot
    contradiction
  · obtain rfl | hob := List.mem_cons.mp hob
    · exact Nat.le_refl o
    · exact Nat.le_of_lt ((List.pairwise_cons.mp (List.pairwise_append.mp ascending).2.1).1 o hob)

/-- Of all orders in which nothing stands behind what it must precede, the least is the one that takes the
first free position each time. -/
theorem placeFirst_least {before : Nat → Nat → Bool} {waiting : List Nat}
    (irreflexive : ∀ i, before i i = false) (ascending : waiting.Pairwise (· < ·)) :
    ∀ other : List Nat, other.Perm waiting → other.Pairwise (fun i j => before j i = false) →
      (placeFirst before waiting).1 ++ (placeFirst before waiting).2 = other ∨
        List.Lex (· < ·) ((placeFirst before waiting).1 ++ (placeFirst before waiting).2) other := by
  -- the other order starts with a free position
  have hfree {o : Nat} {rest waiting : List Nat} (hperm : (o :: rest).Perm waiting)
      (h : ∀ j ∈ rest, before j o = false) : (waiting.all fun j => !before j o) = true := by
    simp only [List.all_eq_true, Bool.not_eq_true']
    intro j hj
    obtain rfl | hj := List.mem_cons.mp (hperm.mem_iff.mpr hj)
    · exact irreflexive j
    · exact h j hj
  fun_induction placeFirst before waiting with
  | case1 waiting hnone =>
    rintro (- | ⟨o, rest⟩) hperm hother
    · exact .inl hperm.nil_eq.symm
    · have ho := hfree hperm (List.pairwise_cons.mp hother).1
      exact absurd ho (List.find?_eq_none.mp hnone o (hperm.mem_iff.mp (List.mem_cons_self ..)))
  | case2 waiting i hi _ r ih =>
    have hmem : i ∈ waiting := List.mem_of_find?_eq_some hi
    rintro (- | ⟨o, rest⟩) hperm hother
    · exact absurd (hperm.mem_iff.mpr hmem) List.not_mem_nil
    · obtain ⟨hrest, hpairs⟩ := List.pairwise_cons.mp hother
      have hle : i ≤ o := le_of_find? ascending hi (hperm.mem_iff.mp (List.mem_cons_self ..))
        (hfree hperm hrest)
      obtain rfl | hlt := Nat.eq_or_lt_of_le hle
      · have hrest : rest.Perm (waiting.erase i) :=
          (hperm.trans (List.perm_cons_erase hmem)).cons_inv
        obtain heq | hlex := ih (ascending.sublist List.erase_sublist) rest hrest hpairs
        · exact .inl (congrArg (i :: ·) heq)
        · exact .inr (.cons hlex)
      · exact .inr (.rel hlt)

/-- Elements are left over just if there is a cycle. -/
theorem acyclic_iff_stuck (compare : α → α → Ordering) (xs : List α) :
    Acyclic (Constraint compare xs) ↔ (topologicalSort compare xs).stuck = 0 := by
  let before := constrains compare xs
  have hgraph : (fun i j => before i j = true) = Constraint compare xs :=
    funext₂ fun i j => propext constrains_iff
  constructor
  · intro hacyclic
    refine List.length_eq_zero_iff.mpr (List.eq_nil_iff_forall_not_mem.mpr fun j hj => ?_)
    obtain ⟨i, -, hcycle, -⟩ := exists_cycle (fun _ => exists_before_of_left) hj
    rw [hgraph] at hcycle
    exact hacyclic i hcycle
  · intro hstuck i hi
    -- each position on a cycle waits for another one on a cycle
    have hblocked : ∀ j ∈ List.range xs.length, Relation.TransGen (Constraint compare xs) j j →
        ∃ k ∈ List.range xs.length, Relation.TransGen (Constraint compare xs) k k ∧
          before k j = true := by
      intro j hj hround
      obtain ⟨k, hpath, hstep⟩ := Relation.TransGen.tail'_iff.mp hround
      exact ⟨k, hstep.mem_range.1, .head' hstep hpath, constrains_iff.mpr hstep⟩
    obtain ⟨k, -, hstep⟩ := Relation.TransGen.tail'_iff.mp hi
    have hleft := mem_left_of_blocked _ hblocked hstep.mem_range.2 hi
    rw [List.length_eq_zero_iff.mp hstuck] at hleft
    exact List.not_mem_nil hleft

theorem perm_order (compare : α → α → Ordering) (xs : List α) :
    (order compare xs).Perm (List.range xs.length) :=
  perm_placeFirst _ _

theorem items_eq_order (compare : α → α → Ordering) (xs : List α) :
    (topologicalSort compare xs).items.map some = (order compare xs).map fun i => xs[i]? := by
  refine map_some_filterMap fun i hi => ?_
  simpa using (perm_order compare xs).mem_iff.mp hi

/-- If there is no cycle, the order of a sort respects the constraints. -/
theorem order_respects (h : Acyclic (Constraint compare xs)) :
    Respects (Constraint compare xs) (order compare xs) := by
  rw [respects_iff_pairwise (perm_order compare xs)]
  have hleft : (placeFirst (constrains compare xs) (List.range xs.length)).2 = [] :=
    List.length_eq_zero_iff.mp ((acyclic_iff_stuck compare xs).mp h)
  have hplaced := (placed_pairwise (constrains compare xs) (List.range xs.length)).1
  simp only [order, hleft, List.append_nil]
  exact hplaced.imp constrains_eq_false_iff.mp

/-- Sorting computes the least linear extension, and it can be done by counting without a counter that falls
below zero. It goes through each position of the list once; and if the constraints have no cycle, it
respects them all, and any other order that does so differs from it first at a place where the other has
the later position. -/
theorem topologicalSort_least (compare : α → α → Ordering) (xs : List α) :
    sortCounting compare xs = some (topologicalSort compare xs) ∧
      ∃ order : List Nat, order.Perm (List.range xs.length) ∧
        (topologicalSort compare xs).items.map some = order.map (fun i => xs[i]?) ∧
        (Acyclic (Constraint compare xs) → Respects (Constraint compare xs) order ∧
          ∀ other : List Nat, other.Perm (List.range xs.length) →
            Respects (Constraint compare xs) other → order = other ∨ List.Lex (· < ·) order other) := by
  refine ⟨sortCounting_eq compare xs, order compare xs, perm_order compare xs,
    items_eq_order compare xs, fun hacyclic =>
    ⟨order_respects hacyclic, fun other hperm hother => ?_⟩⟩
  have hirreflexive (i : Nat) : constrains compare xs i i = false :=
    constrains_eq_false_iff.mpr fun h => h.ne rfl
  have hpairs := ((respects_iff_pairwise hperm).mp hother).imp constrains_eq_false_iff.mpr
  exact placeFirst_least hirreflexive List.pairwise_lt_range other hperm hpairs

end Weaving.Sorting
