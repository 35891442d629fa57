import Mathlib.Data.List.Find
import Weaving.Proofs.Precedence.Sorting

/-! Counting. A comparison is asked once about each two elements of a list. If one counts for each position
how many others it waits for, and with each position that is taken releases those that wait for it, one
never has to look for what must go first: it is what has its counter at zero. -/
namespace Weaving.Sorting

variable {α : Type} {compare : α → α → Ordering} {xs : List α}

/-- The constraints of a comparison on the positions of a list. It is asked once about each two
elements, about the one that stands first and then the other. -/
inductive Constraint (compare : α → α → Ordering) (xs : List α) : Nat → Nat → Prop
  | forward {i j : Nat} {x y : α} (first : xs[i]? = some x) (second : xs[j]? = some y) (apart : i < j)
      (less : compare x y = .lt) : Constraint compare xs i j
  | backward {i j : Nat} {x y : α} (first : xs[i]? = some x) (second : xs[j]? = some y) (apart : i < j)
      (greater : compare x y = .gt) : Constraint compare xs j i

theorem constrains_iff {i j : Nat} : constrains compare xs i j = true ↔ Constraint compare xs i j := by
  constructor
  · intro h
    unfold constrains at h
    split at h
    next x y hi hj =>
      split at h
      next hij => exact .forward hi hj hij (of_decide_eq_true h)
      next =>
        split at h
        next hji => exact .backward hj hi hji (of_decide_eq_true h)
        next => contradiction
    next => contradiction
  · intro h
    cases h with
    | forward hi hj hij hless => simp [constrains, hi, hj, hij, hless]
    | backward hi hj hij hgreater =>
      simp [constrains, hi, hj, hij, Nat.lt_asymm hij, hgreater]

theorem constrains_eq_false_iff {i j : Nat} :
    constrains compare xs i j = false ↔ ¬Constraint compare xs i j := by
  rw [← constrains_iff, Bool.not_eq_true]

namespace Constraint

theorem ne {i j : Nat} (h : Constraint compare xs i j) : i ≠ j := by
  cases h with
  | forward _ _ hij => exact Nat.ne_of_lt hij
  | backward _ _ hij => exact Nat.ne_of_gt hij

theorem mem_range {i j : Nat} (h : Constraint compare xs i j) :
    i ∈ List.range xs.length ∧ j ∈ List.range xs.length := by
  cases h with
  | forward hi hj => exact ⟨mem_range_of_getElem? hi, mem_range_of_getElem? hj⟩
  | backward hi hj => exact ⟨mem_range_of_getElem? hj, mem_range_of_getElem? hi⟩

end Constraint

/-- The constraint that asking about two positions gives: which goes first, and which waits for it. -/
def ask (compare : α → α → Ordering) (xs : List α) (i j : Nat) : Option (Nat × Nat) :=
  match xs[i]?, xs[j]? with
  | some x, some y =>
    match compare x y with
    | .lt => some (i, j)
    | .gt => some (j, i)
    | .eq => none
  | _, _ => none

/-- The constraints on a list in the order in which they are found. -/
def constraints (compare : α → α → Ordering) (xs : List α) : List (Nat × Nat) :=
  (List.range xs.length).flatMap fun i =>
    (List.range' (i + 1) (xs.length - (i + 1))).filterMap (ask compare xs i)

/-- How many constraints each position waits for, and which positions wait for it. -/
structure Counters where
  pending : List Nat
  successors : List (List Nat)

/-- Notes a constraint with both of its positions. -/
def Counters.note (s : Counters) (e : Nat × Nat) : Counters :=
  ⟨s.pending.modify e.2 (· + 1), s.successors.modify e.1 (· ++ [e.2])⟩

/-- The counters of a list before anything is taken from it. -/
def counters (compare : α → α → Ordering) (xs : List α) : Counters :=
  (constraints compare xs).foldl Counters.note
    ⟨List.replicate xs.length 0, List.replicate xs.length []⟩

/-- Takes one off the counter of a position. There is no result if the counter is at zero. -/
def decrement (pending : List Nat) (j : Nat) : Option (List Nat) :=
  match pending[j]? with
  | some (c + 1) => some (pending.set j c)
  | _ => none

/-- Takes, as long as there is one, the first position whose counter is at zero, and takes one off the
counters of those that wait for it. -/
def placeCounting (successors : List (List Nat)) (pending : List Nat) (waiting : List Nat) :
    Option (List Nat × List Nat) :=
  match h : waiting.find? fun i => pending[i]? = some 0 with
  | none => some ([], waiting)
  | some i => do
    have : (waiting.erase i).length < waiting.length := by
      have hm := List.mem_of_find?_eq_some h
      have := List.length_erase_of_mem hm
      have := List.length_pos_of_mem hm
      omega
    let released ← successors[i]?
    let r ← placeCounting successors (← released.foldlM decrement pending) (waiting.erase i)
    return (i :: r.1, r.2)
termination_by waiting.length

/-- Sorts like `topologicalSort`, by counting. -/
def sortCounting (compare : α → α → Ordering) (xs : List α) : Option (Sorted α) := do
  let s := counters compare xs
  let r ← placeCounting s.successors s.pending (List.range xs.length)
  return ⟨(r.1 ++ r.2).filterMap fun i => xs[i]?, r.2.length⟩

theorem mem_constraints_iff {i j : Nat} :
    (i, j) ∈ constraints compare xs ↔ Constraint compare xs i j := by
  simp only [constraints, List.mem_flatMap, List.mem_filterMap, List.mem_range, List.mem_range'_1]
  constructor
  · rintro ⟨k, hk, l, ⟨hkl, -⟩, h⟩
    unfold ask at h
    split at h
    next x y hx hy =>
      split at h
      next hlt =>
        cases h
        exact .forward hx hy hkl hlt
      next hgt =>
        cases h
        exact .backward hx hy hkl hgt
      next => contradiction
    next => contradiction
  · intro h
    have hask {k l : Nat} {x y : α} (hk : xs[k]? = some x) (hl : xs[l]? = some y) (hkl : k < l)
        (h : ask compare xs k l = some (i, j)) :
        ∃ k < xs.length, ∃ l, (k + 1 ≤ l ∧ l < k + 1 + (xs.length - (k + 1))) ∧
          ask compare xs k l = some (i, j) := by
      have := (List.getElem?_eq_some_iff.mp hl).1
      exact ⟨k, by omega, l, by omega, h⟩
    cases h with
    | forward hi hj hij hless => exact hask hi hj hij (by simp [ask, hi, hj, hless])
    | backward hj hi hji hgreater => exact hask hj hi hji (by simp [ask, hi, hj, hgreater])

/-- For how many constraints a position waits, if the given positions are waiting. -/
def waitsFor (edges : List (Nat × Nat)) (waiting : List Nat) (j : Nat) : Nat :=
  edges.countP fun e => waiting.contains e.1 && e.2 == j

/-- The positions that wait for a position. -/
def waitersOf (edges : List (Nat × Nat)) (i : Nat) : List Nat :=
  (edges.filter fun e => e.1 == i).map Prod.snd

variable {β : Type}

theorem modify_map_range (n : Nat) (f : Nat → β) (i : Nat) (g : β → β) :
    ((List.range n).map f).modify i g = (List.range n).map (Function.update f i (g (f i))) := by
  refine List.ext_getElem (by simp) fun k _ _ => ?_
  obtain rfl | hne := eq_or_ne k i
  · simp
  · simp [List.getElem_modify_ne _ _ hne.symm, hne]

theorem foldl_note (edges : List (Nat × Nat)) (n : Nat) (f : Nat → Nat) (g : Nat → List Nat) :
    edges.foldl Counters.note ⟨(List.range n).map f, (List.range n).map g⟩ =
      ⟨(List.range n).map fun j => f j + edges.countP (fun e => e.2 == j),
        (List.range n).map fun i => g i ++ waitersOf edges i⟩ := by
  induction edges generalizing f g with
  | nil => simp [waitersOf]
  | cons e edges ih =>
    rw [List.foldl_cons, Counters.note, modify_map_range, modify_map_range, ih]
    congr 1
    · refine List.map_congr_left fun j _ => ?_
      obtain rfl | hne := eq_or_ne j e.2
      · simp
        omega
      · simp [hne, hne.symm]
    · refine List.map_congr_left fun i _ => ?_
      obtain rfl | hne := eq_or_ne i e.1
      · simp [waitersOf]
      · simp [waitersOf, hne, hne.symm]

/-- At the start every position counts all constraints that it waits for. -/
theorem counters_eq (compare : α → α → Ordering) (xs : List α) :
    counters compare xs =
      ⟨(List.range xs.length).map (waitsFor (constraints compare xs) (List.range xs.length)),
        (List.range xs.length).map (waitersOf (constraints compare xs))⟩ := by
  have hstart := foldl_note (constraints compare xs) xs.length (fun _ => 0) fun _ => []
  simp only [List.map_const', List.length_range, Nat.zero_add, List.nil_append] at hstart
  rw [counters, hstart]
  congr 1
  refine List.map_congr_left fun j _ => List.countP_congr fun e he => ?_
  have := (mem_constraints_iff.mp he).mem_range.1
  simp [List.mem_range.mp this]

theorem decrement_map_range {n j : Nat} (hj : j < n) (f : Nat → Nat) (h : 0 < f j) :
    decrement ((List.range n).map f) j = some ((List.range n).map (Function.update f j (f j - 1))) := by
  obtain ⟨c, hc⟩ := Nat.exists_eq_add_one_of_ne_zero h.ne'
  have hget : ((List.range n).map f)[j]? = some (c + 1) := by simp [hj, hc]
  simp only [decrement, hget]
  rw [List.set_eq_modify, modify_map_range, hc, Nat.add_sub_cancel]

/-- Counters that are high enough go down by as much as is taken from them. -/
theorem foldlM_decrement {n : Nat} {released : List Nat} (hn : ∀ j ∈ released, j < n) (f : Nat → Nat)
    (h : ∀ j, released.count j ≤ f j) :
    released.foldlM decrement ((List.range n).map f) =
      some ((List.range n).map fun j => f j - released.count j) := by
  induction released generalizing f with
  | nil => simp
  | cons i released ih =>
    obtain ⟨hi, hn⟩ := List.forall_mem_cons.mp hn
    have hpos := h i
    rw [List.count_cons_self] at hpos
    rw [List.foldlM_cons, decrement_map_range hi f (by omega)]
    refine (ih hn _ fun j => ?_).trans (congrArg some (List.map_congr_left fun j _ => ?_))
    · have := h j
      obtain rfl | hne := eq_or_ne j i
      · simp
        omega
      · simpa [hne, hne.symm] using this
    · obtain rfl | hne := eq_or_ne j i
      · simp
        omega
      · simp [hne, hne.symm]

theorem count_waitersOf (edges : List (Nat × Nat)) (i j : Nat) :
    (waitersOf edges i).count j = edges.countP fun e => e.1 == i && e.2 == j := by
  rw [waitersOf, List.count, List.countP_map, List.countP_filter]
  exact List.countP_congr fun e _ => by simp [and_comm]

theorem waitsFor_erase {edges : List (Nat × Nat)} {waiting : List Nat} {i : Nat}
    (nodup : waiting.Nodup) (hi : i ∈ waiting) (j : Nat) :
    waitsFor edges waiting j = waitsFor edges (waiting.erase i) j + (waitersOf edges i).count j := by
  rw [count_waitersOf]
  unfold waitsFor
  induction edges with
  | nil => rfl
  | cons e edges ih =>
    rw [List.countP_cons, List.countP_cons, List.countP_cons, ih]
    obtain rfl | hne := eq_or_ne e.1 i
    · simp [hi, nodup.not_mem_erase]
      omega
    · simp [List.mem_erase_of_ne hne, hne]
      omega

theorem waitsFor_eq_zero_iff {edges : List (Nat × Nat)} {waiting : List Nat} {j : Nat} :
    waitsFor edges waiting j = 0 ↔ ∀ i ∈ waiting, (i, j) ∉ edges := by
  rw [waitsFor, List.countP_eq_zero]
  constructor
  · intro h i hi hmem
    exact h (i, j) hmem (by simp [hi])
  · rintro h ⟨i, k⟩ hmem hwaits
    simp only [Bool.and_eq_true, List.contains_iff_mem, beq_iff_eq] at hwaits
    obtain ⟨hi, rfl⟩ := hwaits
    exact h i hi hmem

section

variable {before : Nat → Nat → Bool} {edges : List (Nat × Nat)} {n : Nat} {waiting : List Nat}

/-- Taking a position releases those that wait for it from just the constraints that it put on them. -/
theorem release_waiters (hedges : ∀ e ∈ edges, e.2 < n) (nodup : waiting.Nodup) {i : Nat}
    (hi : i ∈ waiting) :
    (waitersOf edges i).foldlM decrement ((List.range n).map (waitsFor edges waiting)) =
      some ((List.range n).map (waitsFor edges (waiting.erase i))) := by
  have hwaiters : ∀ j ∈ waitersOf edges i, j < n := by
    intro j hj
    obtain ⟨e, he, rfl⟩ := List.mem_map.mp hj
    exact hedges e (List.mem_of_mem_filter he)
  have hcount (j : Nat) : (waitersOf edges i).count j ≤ waitsFor edges waiting j := by
    rw [waitsFor_erase nodup hi]
    exact Nat.le_add_left ..
  rw [foldlM_decrement hwaiters _ hcount]
  refine congrArg some (List.map_congr_left fun j _ => ?_)
  rw [waitsFor_erase nodup hi, Nat.add_sub_cancel]

/-- A counter at zero says what a search through the waiting positions would say. -/
theorem find?_waitsFor (hbefore : ∀ i j, before i j = true ↔ (i, j) ∈ edges)
    (hwaiting : ∀ i ∈ waiting, i < n) :
    waiting.find? (fun i => ((List.range n).map (waitsFor edges waiting))[i]? = some 0) =
      waiting.find? fun i => waiting.all fun j => !before j i := by
  refine List.find?_congr fun i hi => ?_
  rw [Bool.eq_iff_iff]
  simp [hwaiting i hi, waitsFor_eq_zero_iff, ← hbefore]

/-- As long as the counters say what the waiting positions wait for, counting places what is to be placed,
and no counter goes below zero. -/
theorem placeCounting_eq (hbefore : ∀ i j, before i j = true ↔ (i, j) ∈ edges)
    (hedges : ∀ e ∈ edges, e.2 < n) (hwaiting : ∀ i ∈ waiting, i < n) (nodup : waiting.Nodup) :
    placeCounting ((List.range n).map (waitersOf edges))
      ((List.range n).map (waitsFor edges waiting)) waiting = some (placeFirst before waiting) := by
  fun_induction placeFirst before waiting with
  | case1 waiting hnone =>
    rw [← find?_waitsFor hbefore hwaiting] at hnone
    unfold placeCounting
    split
    next => rfl
    next i hi =>
      rw [hnone] at hi
      contradiction
  | case2 waiting i hi _ r ih =>
    have hmem : i ∈ waiting := List.mem_of_find?_eq_some hi
    have hsuccessors : ((List.range n).map (waitersOf edges))[i]? = some (waitersOf edges i) := by
      simp [hwaiting i hmem]
    have hrest := ih (fun j hj => hwaiting j (List.mem_of_mem_erase hj)) (nodup.erase i)
    rw [← find?_waitsFor hbefore hwaiting] at hi
    unfold placeCounting
    split
    next hnone =>
      rw [hi] at hnone
      contradiction
    next k hk =>
      obtain rfl : i = k := Option.some.inj (hi.symm.trans hk)
      simp [hsuccessors, release_waiters hedges nodup hmem, hrest, r]

end

/-- Sorting by counting never takes from a counter that is at zero and comes to the same. -/
theorem sortCounting_eq (compare : α → α → Ordering) (xs : List α) :
    sortCounting compare xs = some (topologicalSort compare xs) := by
  have hbefore (i j : Nat) : constrains compare xs i j = true ↔ (i, j) ∈ constraints compare xs :=
    constrains_iff.trans mem_constraints_iff.symm
  have hwithin : ∀ e ∈ constraints compare xs, e.2 < xs.length := fun e he =>
    List.mem_range.mp (mem_constraints_iff.mp he).mem_range.2
  have hplace := placeCounting_eq hbefore hwithin (fun _ => List.mem_range.mp) List.nodup_range
  simp [sortCounting, counters_eq, hplace, topologicalSort]

end Weaving.Sorting
