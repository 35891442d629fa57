import Mathlib.Data.List.Perm.Basic
import Mathlib.Logic.Relation
import Mathlib.Order.Preorder.Finite
import Weaving.TopologicalSort

/-! What sorting by constraints comes to, whatever the comparison. Every position is used once; what is
placed waits for nothing that comes later; and what is left keeps its order, because each part of it waits
for another one, so that in the end some of it waits for itself. -/
namespace Weaving.Sorting

variable {before : Nat → Nat → Bool} {waiting : List Nat}

theorem perm_placeFirst (before : Nat → Nat → Bool) (waiting : List Nat) :
    ((placeFirst before waiting).1 ++ (placeFirst before waiting).2).Perm waiting := by
  fun_induction placeFirst before waiting with
  | case1 waiting h => exact .refl _
  | case2 waiting i h _ r ih =>
    have hi : i ∈ waiting := List.mem_of_find?_eq_some h
    exact (ih.cons i).trans (List.perm_cons_erase hi).symm

/-- What is left keeps its order. -/
theorem left_sublist (before : Nat → Nat → Bool) (waiting : List Nat) :
    (placeFirst before waiting).2.Sublist waiting := by
  fun_induction placeFirst before waiting with
  | case1 waiting h => exact .refl _
  | case2 waiting i h _ r ih => exact ih.trans List.erase_sublist

/-- A position that is placed waits for none that is placed later or left. -/
theorem placed_pairwise (before : Nat → Nat → Bool) (waiting : List Nat) :
    (placeFirst before waiting).1.Pairwise (fun i j => before j i = false) ∧
      ∀ i ∈ (placeFirst before waiting).1, ∀ j ∈ (placeFirst before waiting).2,
        before j i = false := by
  fun_induction placeFirst before waiting with
  | case1 waiting h => simp
  | case2 waiting i h _ r ih =>
    have hfree : ∀ j ∈ waiting, before j i = false := by
      have := List.find?_some h
      simpa using this
    have hlater : ∀ j ∈ r.1 ++ r.2, before j i = false := fun j hj =>
      hfree j (List.mem_of_mem_erase ((perm_placeFirst before _).mem_iff.mp hj))
    refine ⟨List.pairwise_cons.mpr ⟨fun j hj => ?_, ih.1⟩, fun k hk j hj => ?_⟩
    · exact hlater j (List.mem_append_left _ hj)
    · obtain rfl | hk := List.mem_cons.mp hk
      · exact hlater j (List.mem_append_right _ hj)
      · exact ih.2 k hk j hj

/-- Whatever is left waits for something that is left. -/
theorem exists_before_of_left {j : Nat} (hj : j ∈ (placeFirst before waiting).2) :
    ∃ i ∈ (placeFirst before waiting).2, before i j = true := by
  fun_induction placeFirst before waiting with
  | case1 waiting h => simpa using List.find?_eq_none.mp h j hj
  | case2 waiting i h _ r ih => exact ih hj

/-- If everything waits for something, nothing is placed. -/
theorem placeFirst_of_blocked (h : ∀ j ∈ waiting, ∃ i ∈ waiting, before i j = true) :
    placeFirst before waiting = ([], waiting) := by
  have hnone : waiting.find? (fun i => waiting.all fun j => !before j i) = none := by
    simpa using h
  unfold placeFirst
  split
  next => rfl
  next i hi =>
    rw [hnone] at hi
    contradiction

/-- The head is taken if it waits for nothing. -/
theorem placeFirst_cons {i : Nat} {rest : List Nat} (h : ∀ j ∈ i :: rest, before j i = false) :
    placeFirst before (i :: rest) =
      (i :: (placeFirst before rest).1, (placeFirst before rest).2) := by
  have hfree : ((i :: rest).all fun j => !before j i) = true := by simpa using h
  have hfound : (i :: rest).find? (fun k => (i :: rest).all fun j => !before j k) = some i :=
    List.find?_cons_of_pos hfree
  rw [placeFirst]
  split
  next hnone =>
    rw [hfound] at hnone
    contradiction
  next k hk =>
    obtain rfl : i = k := Option.some.inj (hfound.symm.trans hk)
    simp

/-- Positions that wait for nothing behind them are placed as they stand, and what waits for each other
behind them is left. -/
theorem placeFirst_append {front back : List Nat} (irreflexive : ∀ i, before i i = false)
    (ordered : front.Pairwise fun i j => before j i = false)
    (ahead : ∀ i ∈ front, ∀ j ∈ back, before j i = false)
    (blocked : ∀ j ∈ back, ∃ i ∈ back, before i j = true) :
    placeFirst before (front ++ back) = (front, back) := by
  induction front with
  | nil => exact placeFirst_of_blocked blocked
  | cons i front ih =>
    obtain ⟨hi, ordered⟩ := List.pairwise_cons.mp ordered
    have hfree : ∀ j ∈ i :: (front ++ back), before j i = false := by
      intro j hj
      obtain rfl | hj := List.mem_cons.mp hj
      · exact irreflexive j
      · obtain hj | hj := List.mem_append.mp hj
        · exact hi j hj
        · exact ahead i (List.mem_cons_self ..) j hj
    rw [List.cons_append, placeFirst_cons hfree,
      ih ordered fun k hk => ahead k (List.mem_cons_of_mem i hk)]

/-- What waits for its like is never placed. -/
theorem mem_left_of_blocked (blocked : Nat → Prop)
    (h : ∀ j ∈ waiting, blocked j → ∃ i ∈ waiting, blocked i ∧ before i j = true) {j : Nat}
    (hj : j ∈ waiting) (hblocked : blocked j) : j ∈ (placeFirst before waiting).2 := by
  fun_induction placeFirst before waiting with
  | case1 waiting hnone => exact hj
  | case2 waiting k hk _ r ih =>
    have hfree : ∀ i ∈ waiting, before i k = false := by simpa using List.find?_some hk
    have hkept {i : Nat} (hi : i ∈ waiting) (hb : blocked i) : i ∈ waiting.erase k := by
      refine (List.mem_erase_of_ne ?_).mpr hi
      rintro rfl
      obtain ⟨l, hl, -, hbefore⟩ := h i hi hb
      rw [hfree l hl] at hbefore
      contradiction
    refine ih (fun i hi hb => ?_) (hkept hj hblocked)
    obtain ⟨l, hl, hbl, hbefore⟩ := h i (List.mem_of_mem_erase hi) hb
    exact ⟨l, hkept hl hbl, hbl, hbefore⟩

/-- In a finite list in which everything waits for something, whatever one starts from waits in the end
for something that waits for itself. -/
theorem exists_cycle {left : List Nat} (h : ∀ j ∈ left, ∃ i ∈ left, before i j = true) {j : Nat}
    (hj : j ∈ left) :
    ∃ i ∈ left, Relation.TransGen (fun a b => before a b = true) i i ∧
      Relation.ReflTransGen (fun a b => before a b = true) i j := by
  choose! previous hmem hbefore using h
  -- going back from `j` again and again must come to a position twice
  let f : Nat → Nat := fun n => previous^[n] j
  have hf (n : Nat) : f n ∈ left := by
    induction n with
    | zero => exact hj
    | succ n ih =>
      simp only [f, Function.iterate_succ_apply']
      exact hmem _ ih
  have hstep (n : Nat) : before (f (n + 1)) (f n) = true := by
    simp only [f, Function.iterate_succ_apply']
    exact hbefore _ (hf n)
  have hback (m k : Nat) : Relation.ReflTransGen (fun a b => before a b = true) (f (m + k)) (f m) := by
    induction k with
    | zero => exact .refl
    | succ k ih => exact .head (hstep (m + k)) ih
  obtain ⟨m, n, hmn, heq⟩ :=
    Set.Finite.exists_lt_map_eq_of_forall_mem (fun n => hf n) left.finite_toSet
  obtain ⟨k, rfl⟩ : ∃ k, n = m + 1 + k := ⟨n - (m + 1), by omega⟩
  have hstart : Relation.ReflTransGen (fun a b => before a b = true) (f m) j := by
    have := hback 0 m
    rwa [Nat.zero_add] at this
  refine ⟨f m, hf m, ?_, hstart⟩
  have hround := Relation.TransGen.tail' (hback (m + 1) k) (hstep m)
  rwa [← heq] at hround

variable {α : Type} {compare : α → α → Ordering} {xs : List α}

theorem filterMap_range_getElem? (xs : List α) :
    (List.range xs.length).filterMap (fun i => xs[i]?) = xs := by
  induction xs with
  | nil => rfl
  | cons x xs ih =>
    rw [List.length_cons, List.range_succ_eq_map, List.filterMap_cons]
    simpa [List.filterMap_map, Function.comp_def] using ih

theorem mem_range_of_getElem? {i : Nat} {x : α} (h : xs[i]? = some x) : i ∈ List.range xs.length :=
  List.mem_range.mpr (List.getElem?_eq_some_iff.mp h).1

/-- Where every element has an answer, no answer is left out. -/
theorem map_some_filterMap {f : Nat → Option α} {l : List Nat} (h : ∀ i ∈ l, (f i).isSome = true) :
    (l.filterMap f).map some = l.map f := by
  induction l with
  | nil => rfl
  | cons i l ih =>
    obtain ⟨x, hx⟩ := Option.isSome_iff_exists.mp (h i (List.mem_cons_self ..))
    rw [List.filterMap_cons_some hx, List.map_cons, List.map_cons, hx,
      ih fun j hj => h j (List.mem_cons_of_mem i hj)]

/-- The elements that are placed. -/
def placed (compare : α → α → Ordering) (xs : List α) : List α :=
  (placeFirst (constrains compare xs) (List.range xs.length)).1.filterMap fun i => xs[i]?

/-- The elements that are left because they wait for each other. -/
def leftOver (compare : α → α → Ordering) (xs : List α) : List α :=
  (placeFirst (constrains compare xs) (List.range xs.length)).2.filterMap fun i => xs[i]?

theorem items_eq (compare : α → α → Ordering) (xs : List α) :
    (topologicalSort compare xs).items = placed compare xs ++ leftOver compare xs :=
  List.filterMap_append

theorem stuck_eq (compare : α → α → Ordering) (xs : List α) :
    (topologicalSort compare xs).stuck = (leftOver compare xs).length := by
  have hsome := map_some_filterMap (f := fun i => xs[i]?) fun i hi => by
    simpa using (left_sublist (constrains compare xs) (List.range xs.length)).subset hi
  simpa [topologicalSort, leftOver] using congrArg List.length hsome.symm

/-- Nothing moves if every element waits for another. -/
theorem topologicalSort_of_blocked
    (h : ∀ j < xs.length, ∃ i < xs.length, constrains compare xs i j = true) :
    topologicalSort compare xs = ⟨xs, xs.length⟩ := by
  have hplace : placeFirst (constrains compare xs) (List.range xs.length) =
      ([], List.range xs.length) :=
    placeFirst_of_blocked (by simpa using h)
  simp [topologicalSort, hplace, filterMap_range_getElem?]

/-- Sorting rearranges a list. -/
theorem perm_topologicalSort (compare : α → α → Ordering) (xs : List α) :
    (topologicalSort compare xs).items.Perm xs := by
  have h := (perm_placeFirst (constrains compare xs) (List.range xs.length)).filterMap
    fun i => xs[i]?
  rwa [filterMap_range_getElem?] at h

/-- What is left over keeps the order of the input. -/
theorem leftOver_sublist (compare : α → α → Ordering) (xs : List α) :
    (leftOver compare xs).Sublist xs := by
  have h := (left_sublist (constrains compare xs) (List.range xs.length)).filterMap fun i => xs[i]?
  rwa [filterMap_range_getElem?] at h

/-- Elements constrain each other if the comparison gives the same answer both ways round. -/
theorem constrains_of_lt {i j : Nat} {x y : α} (hi : xs[i]? = some x) (hj : xs[j]? = some y)
    (hlt : compare x y = .lt) (hgt : compare y x = .gt) : constrains compare xs i j = true := by
  obtain h | rfl | h := Nat.lt_trichotomy i j
  · simp [constrains, hi, hj, h, hlt]
  · obtain rfl : x = y := Option.some.inj (hi.symm.trans hj)
    rw [hlt] at hgt
    contradiction
  · simp [constrains, hi, hj, h, Nat.lt_asymm h, hgt]

/-- Nothing stands behind a placed element that the comparison puts before it both ways round. -/
theorem placed_in_order (compare : α → α → Ordering) (xs : List α) :
    (placed compare xs).Pairwise (fun x y => ¬(compare y x = .lt ∧ compare x y = .gt)) ∧
      ∀ x ∈ placed compare xs, ∀ y ∈ leftOver compare xs,
        ¬(compare y x = .lt ∧ compare x y = .gt) := by
  have hpositions {i j : Nat} (hij : constrains compare xs j i = false) {x y : α}
      (hi : xs[i]? = some x) (hj : xs[j]? = some y) : ¬(compare y x = .lt ∧ compare x y = .gt) := by
    rintro ⟨hlt, hgt⟩
    rw [constrains_of_lt hj hi hlt hgt] at hij
    contradiction
  obtain ⟨hplaced, hleft⟩ := placed_pairwise (constrains compare xs) (List.range xs.length)
  refine ⟨List.pairwise_filterMap.mpr (hplaced.imp fun hij x hx y hy => hpositions hij hx hy),
    fun x hx y hy => ?_⟩
  obtain ⟨i, hi, hx⟩ := List.mem_filterMap.mp hx
  obtain ⟨j, hj, hy⟩ := List.mem_filterMap.mp hy
  exact hpositions (hleft i hi j hj) hx hy

/-- An element that is left over waits in the end for something that waits for itself. -/
theorem exists_cycle_of_leftOver {y : α} (hy : y ∈ leftOver compare xs) :
    ∃ i j, xs[j]? = some y ∧
      Relation.TransGen (fun a b => constrains compare xs a b = true) i i ∧
      Relation.ReflTransGen (fun a b => constrains compare xs a b = true) i j := by
  obtain ⟨j, hj, hy⟩ := List.mem_filterMap.mp hy
  obtain ⟨i, -, hcycle, hpath⟩ := exists_cycle (fun _ => exists_before_of_left) hj
  exact ⟨i, j, hy, hcycle, hpath⟩

end Weaving.Sorting
