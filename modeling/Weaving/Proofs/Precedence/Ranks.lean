import Weaving.Advisor.Precedence
import Weaving.Proofs.Precedence.Sorting

/-! Ranks in sorted lists of advisors. An advisor of a lower rank goes before one of a higher rank, unless
advisors of at most its own rank wait for each other: what waits for these is left in input order. -/
namespace Weaving.Advisor

variable {a b : Advisor} {as : List Advisor}

/-- The ranks of a list never go down. -/
def RankSorted (as : List Advisor) : Prop := as.Pairwise fun a b => a.rank ≤ b.rank

/-- The advisor at the first position must go before the one at the second. -/
def Precedes (as : List Advisor) (i j : Nat) : Prop := constrains precedence as i j = true

/-- Some advisor of at most the given rank must in the end go before itself. -/
def CyclicUpTo (as : List Advisor) (rank : Int) : Prop :=
  ∃ i a, as[i]? = some a ∧ a.rank ≤ rank ∧ Relation.TransGen (Precedes as) i i

theorem precedence_of_rank_lt (h : a.rank < b.rank) :
    precedence a b = .lt ∧ precedence b a = .gt := by
  have hlt : compare a.rank b.rank = .lt := compare_lt_iff_lt.mpr h
  have hgt : compare b.rank a.rank = .gt := compare_gt_iff_gt.mpr h
  simp [precedence, hlt, hgt]

theorem rank_le_of_precedence_ne_gt (h : precedence a b ≠ .gt) : a.rank ≤ b.rank := by
  by_contra hlt
  exact h (precedence_of_rank_lt (not_le.mp hlt)).2

theorem rank_le_of_precedence_ne_lt (h : precedence a b ≠ .lt) : b.rank ≤ a.rank := by
  by_contra hlt
  exact h (precedence_of_rank_lt (not_le.mp hlt)).1

/-- Whoever must go before another has at most its rank. -/
theorem rank_le_of_precedes {i j : Nat} (h : Precedes as i j) :
    ∃ a b, as[i]? = some a ∧ as[j]? = some b ∧ a.rank ≤ b.rank := by
  unfold Precedes constrains at h
  split at h
  next a b ha hb =>
    refine ⟨a, b, ha, hb, ?_⟩
    split at h
    next =>
      apply rank_le_of_precedence_ne_gt
      simp_all
    next =>
      split at h
      next =>
        apply rank_le_of_precedence_ne_lt
        simp_all
      next => contradiction
  next => contradiction

theorem rank_le_of_path {i j : Nat} (h : Relation.ReflTransGen (Precedes as) i j)
    (hb : as[j]? = some b) : ∃ a, as[i]? = some a ∧ a.rank ≤ b.rank := by
  induction h using Relation.ReflTransGen.head_induction_on with
  | refl => exact ⟨b, hb, le_refl _⟩
  | head hstep _ ih =>
    obtain ⟨a, c, ha, hc, hle⟩ := rank_le_of_precedes hstep
    obtain ⟨c', hc', hle'⟩ := ih
    obtain rfl : c = c' := Option.some.inj (hc.symm.trans hc')
    exact ⟨a, ha, le_trans hle hle'⟩

/-- Sorting advisors rearranges them. Lower ranks go first, but for those at the end that are left in
input order: each of these waits for advisors of at most its own rank that wait for each other. -/
theorem rank_sorted_but_for_cycles (as : List Advisor) :
    ∃ placed left, (sort as).items = placed ++ left ∧ (placed ++ left).Perm as ∧
      RankSorted placed ∧ (∀ a ∈ placed, ∀ b ∈ left, a.rank ≤ b.rank) ∧
      left.Sublist as ∧ ∀ b ∈ left, CyclicUpTo as b.rank := by
  have hitems : (sort as).items = Sorting.placed precedence as ++ Sorting.leftOver precedence as :=
    Sorting.items_eq precedence as
  have hperm : (sort as).items.Perm as := Sorting.perm_topologicalSort precedence as
  obtain ⟨hplaced, hleft⟩ := Sorting.placed_in_order precedence as
  have hrank {a b : Advisor} (h : ¬(precedence b a = .lt ∧ precedence a b = .gt)) :
      a.rank ≤ b.rank := not_lt.mp fun hlt => h (precedence_of_rank_lt hlt)
  refine ⟨_, _, hitems, hitems ▸ hperm, hplaced.imp hrank, fun a ha b hb => hrank (hleft a ha b hb),
    Sorting.leftOver_sublist precedence as, fun b hb => ?_⟩
  obtain ⟨i, j, hj, hcycle, hpath⟩ := Sorting.exists_cycle_of_leftOver hb
  obtain ⟨a, ha, hle⟩ := rank_le_of_path hpath hj
  exact ⟨i, a, ha, hle, hcycle⟩

/-- Three advisors of rank 1 that wait for each other, behind one of rank 2. -/
def entangled : List Advisor :=
  let role : Role := .pointcut .any (.around ⟨"proceeding", Program.proceed⟩)
  [⟨role, some 2, none⟩, ⟨role, some 1, some ⟨"X", 0, .before⟩⟩,
    ⟨role, some 1, some ⟨"X", 1, .after⟩⟩, ⟨role, some 1, some ⟨"X", 2, .around⟩⟩]

/-- A cycle leaves a higher rank in front of lower ones, if that is where it stood. -/
theorem entangled_not_rank_sorted :
    (sort entangled).items = entangled ∧ ¬RankSorted (sort entangled).items := by
  have hsort : (sort entangled).items = entangled := by
    have hblocked : ∀ j < entangled.length, ∃ i < entangled.length,
        constrains precedence entangled i j = true := by decide
    rw [sort, Sorting.topologicalSort_of_blocked hblocked]
  refine ⟨hsort, fun h => ?_⟩
  rw [hsort] at h
  have hfirst : (2 : Int) ≤ 1 := (List.pairwise_cons.mp h).1 _ (List.mem_cons_self ..)
  omega

end Weaving.Advisor
