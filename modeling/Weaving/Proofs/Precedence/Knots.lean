import Mathlib.Data.Set.Finite.Lemmas
import Weaving.Proofs.Precedence.Oriented
import Weaving.Proofs.Precedence.Ranks

/-! Knots. Within an aspect the earlier declaration goes first, but where advice that runs after the call is
involved the later one does. So two declarations that do not run after the call and one between them that
does wait for each other round; and wherever advisors wait for each other there are three such ones. -/
namespace Weaving

namespace Placement

/-- Three places of one aspect: advice that does not run after the call in the first and the last, and
advice that does in between. -/
structure Knot (x y z : Placement) : Prop where
  aspect : x.aspect = y.aspect ∧ y.aspect = z.aspect
  kinds : x.kind.isAfter = false ∧ y.kind.isAfter = true ∧ z.kind.isAfter = false
  declared : x.declaration < y.declaration ∧ y.declaration < z.declaration

variable {x y z : Placement}

theorem precedence_of_isAfter (h : x.kind.isAfter = true ∨ y.kind.isAfter = true) :
    x.precedence y = .lt ↔ y.declaration < x.declaration := by
  have hafter : (x.kind.isAfter || y.kind.isAfter) = true := Bool.or_eq_true_iff.mpr h
  simp [precedence, hafter, Nat.compare_eq_lt]

theorem precedence_of_not_isAfter (hx : x.kind.isAfter = false) (hy : y.kind.isAfter = false) :
    x.precedence y = .lt ↔ x.declaration < y.declaration := by
  simp [precedence, hx, hy, Nat.compare_eq_lt]

/-- The first place of a knot goes before the last, this before the middle, and this before the first. -/
theorem Knot.round (h : Knot x y z) :
    x.precedence z = .lt ∧ z.precedence y = .lt ∧ y.precedence x = .lt := by
  obtain ⟨hx, hy, hz⟩ := h.kinds
  obtain ⟨hxy, hyz⟩ := h.declared
  exact ⟨(precedence_of_not_isAfter hx hz).mpr (hxy.trans hyz),
    (precedence_of_isAfter (.inr hy)).mpr hyz, (precedence_of_isAfter (.inl hy)).mpr hxy⟩

/-- Places of one aspect none of which can go first contain a knot. Its ends are the place declared last of
all and, of those whose advice does not run after the call, the one declared first. -/
theorem exists_knot {places : Set Placement} (finite : places.Finite) (nonempty : places.Nonempty)
    (aspect : ∀ x ∈ places, ∀ y ∈ places, x.aspect = y.aspect)
    (blocked : ∀ y ∈ places, ∃ x ∈ places, x.precedence y = .lt) :
    ∃ x ∈ places, ∃ y ∈ places, ∃ z ∈ places, Knot x y z := by
  obtain ⟨last, hlast, hmax⟩ := Set.exists_max_image places declaration finite nonempty
  -- something that does not run after the call goes before whatever is declared last
  have hbefore {z : Placement} (hz : z ∈ places) (hdeclared : last.declaration ≤ z.declaration) :
      z.kind.isAfter = false ∧
        ∃ x ∈ places, x.kind.isAfter = false ∧ x.declaration < z.declaration := by
    obtain ⟨x, hx, hlt⟩ := blocked z hz
    by_cases hafter : x.kind.isAfter = true ∨ z.kind.isAfter = true
    · have := (precedence_of_isAfter hafter).mp hlt
      have := hmax x hx
      omega
    · simp only [not_or, Bool.not_eq_true] at hafter
      exact ⟨hafter.2, x, hx, hafter.1, (precedence_of_not_isAfter hafter.1 hafter.2).mp hlt⟩
  obtain ⟨hlastKind, w, hw, hwKind, hwLast⟩ := hbefore hlast le_rfl
  obtain ⟨first, ⟨hfirst, hfirstKind⟩, hmin⟩ :=
    Set.exists_min_image {x ∈ places | x.kind.isAfter = false} declaration
      (finite.subset (Set.sep_subset _ _)) ⟨w, hw, hwKind⟩
  -- what goes before the first of these runs after the call and is declared later, but not last
  obtain ⟨y, hy, hlt⟩ := blocked first hfirst
  have hyKind : y.kind.isAfter = true := by
    by_contra hkind
    rw [Bool.not_eq_true] at hkind
    have := (precedence_of_not_isAfter hkind hfirstKind).mp hlt
    have := hmin y ⟨hy, hkind⟩
    omega
  have hyFirst := (precedence_of_isAfter (.inl hyKind)).mp hlt
  have hyLast : y.declaration < last.declaration := by
    by_contra hge
    have hyNot := (hbefore hy (not_lt.mp hge)).1
    rw [hyKind] at hyNot
    contradiction
  exact ⟨first, hfirst, y, hy, last, hlast,
    ⟨⟨aspect first hfirst y hy, aspect y hy last hlast⟩, ⟨hfirstKind, hyKind, hlastKind⟩,
      ⟨hyFirst, hyLast⟩⟩⟩

end Placement

namespace Advisor

variable {a b : Advisor} {as bs : List Advisor}

/-- Three advisors of one rank whose places make a knot. -/
def Knotted (as : List Advisor) : Prop :=
  ∃ a ∈ as, ∃ b ∈ as, ∃ c ∈ as, a.rank = b.rank ∧ b.rank = c.rank ∧
    ∃ x y z, a.placement = some x ∧ b.placement = some y ∧ c.placement = some z ∧ x.Knot y z

theorem Knotted.mono (h : Knotted as) (hsub : as ⊆ bs) : Knotted bs := by
  obtain ⟨a, ha, b, hb, c, hc, hknot⟩ := h
  exact ⟨a, hsub ha, b, hsub hb, c, hsub hc, hknot⟩

theorem precedence_of_rank_eq (h : a.rank = b.rank) : precedence a b = .lt ↔
    ∃ x y, a.placement = some x ∧ b.placement = some y ∧ x.aspect = y.aspect ∧
      x.precedence y = .lt := by
  have heq : compare a.rank b.rank = .eq := compare_eq_iff_eq.mpr h
  cases hx : a.placement with
  | none => simp [precedence, heq, hx]
  | some x =>
    cases hy : b.placement with
    | none => simp [precedence, heq, hx, hy]
    | some y => by_cases haspect : x.aspect = y.aspect <;> simp [precedence, heq, hx, hy, haspect]

/-- Whoever goes before another has a lower rank, or the same rank and a place before the other's in the
same aspect. -/
theorem precedence_eq_lt_iff : precedence a b = .lt ↔ a.rank < b.rank ∨
    a.rank = b.rank ∧ ∃ x y, a.placement = some x ∧ b.placement = some y ∧
      x.aspect = y.aspect ∧ x.precedence y = .lt := by
  obtain hlt | heq | hgt := lt_trichotomy a.rank b.rank
  · simp [(precedence_of_rank_lt hlt).1, hlt]
  · simp [precedence_of_rank_eq heq, heq]
  · simp [(precedence_of_rank_lt hgt).2, hgt.ne', not_lt_of_gt hgt]

/-- Advisors none of which can go first are knotted: so are those of least rank and one aspect. -/
theorem knotted_of_blocked {left : List Advisor} (hleft : left ≠ [])
    (blocked : ∀ b ∈ left, ∃ a ∈ left, precedence a b = .lt) : Knotted left := by
  obtain ⟨m, hm, hmin⟩ := Set.exists_min_image {a | a ∈ left} rank left.finite_toSet
    (List.exists_mem_of_ne_nil left hleft)
  -- whoever goes before an advisor of least rank has the same rank and is declared in the same aspect
  have hsame {b : Advisor} (hb : b ∈ left) (hrank : b.rank = m.rank) :
      ∃ a ∈ left, a.rank = m.rank ∧ ∃ x y, a.placement = some x ∧ b.placement = some y ∧
        x.aspect = y.aspect ∧ x.precedence y = .lt := by
    obtain ⟨a, ha, hlt⟩ := blocked b hb
    obtain hlower | ⟨heq, hplaces⟩ := precedence_eq_lt_iff.mp hlt
    · exact absurd (hmin a ha) (by omega)
    · exact ⟨a, ha, heq.trans hrank, hplaces⟩
  obtain ⟨-, -, -, -, y, -, hy, -⟩ := hsame hm rfl
  let places : Set Placement :=
    {x | ∃ a ∈ left, a.rank = m.rank ∧ a.placement = some x ∧ x.aspect = y.aspect}
  have hfinite : places.Finite := by
    refine (left.filterMap placement).finite_toSet.subset ?_
    rintro x ⟨a, ha, -, hx, -⟩
    exact List.mem_filterMap.mpr ⟨a, ha, hx⟩
  have hblocked : ∀ z ∈ places, ∃ x ∈ places, x.precedence z = .lt := by
    rintro z ⟨b, hb, hrank, hz, haspect⟩
    obtain ⟨a, ha, harank, x, z', hx, hz', hxz, hlt⟩ := hsame hb hrank
    obtain rfl : z = z' := Option.some.inj (hz.symm.trans hz')
    exact ⟨x, ⟨a, ha, harank, hx, hxz.trans haspect⟩, hlt⟩
  have haspect : ∀ x ∈ places, ∀ z ∈ places, x.aspect = z.aspect := by
    rintro x ⟨-, -, -, -, hx⟩ z ⟨-, -, -, -, hz⟩
    exact hx.trans hz.symm
  obtain ⟨x, ⟨a, ha, har, hax, -⟩, y', ⟨b, hb, hbr, hby, -⟩, z, ⟨c, hc, hcr, hcz, -⟩, hknot⟩ :=
    Placement.exists_knot hfinite ⟨y, m, hm, rfl, hy, rfl⟩ haspect hblocked
  exact ⟨a, ha, b, hb, c, hc, har.trans hbr.symm, hbr.trans hcr.symm, x, y', z, hax, hby, hcz, hknot⟩

/-- None of the advisors of a knot can be placed. -/
theorem leftOver_ne_nil_of_knotted (h : Knotted as) : Sorting.leftOver precedence as ≠ [] := by
  obtain ⟨a, ha, b, hb, c, hc, hab, hbc, x, y, z, hx, hy, hz, hknot⟩ := h
  obtain ⟨hxy, hyz⟩ := hknot.aspect
  obtain ⟨hac, hcb, hba⟩ := hknot.round
  have hblocked : ∀ e ∈ as, (e = a ∨ e = b ∨ e = c) →
      ∃ d ∈ as, (d = a ∨ d = b ∨ d = c) ∧ precedence d e = .lt := by
    rintro e - (rfl | rfl | rfl)
    · exact ⟨b, hb, by simp, precedence_eq_lt_iff.mpr (.inr ⟨hab.symm, y, x, hy, hx, hxy.symm, hba⟩)⟩
    · exact ⟨c, hc, by simp, precedence_eq_lt_iff.mpr (.inr ⟨hbc.symm, z, y, hz, hy, hyz.symm, hcb⟩)⟩
    · exact ⟨a, ha, by simp, precedence_eq_lt_iff.mpr
        (.inr ⟨hab.trans hbc, x, z, hx, hz, hxy.trans hyz, hac⟩)⟩
  exact List.ne_nil_of_mem (Sorting.mem_leftOver_of_blocked _ hblocked ha (.inl rfl))

theorem leftOver_ne_nil_iff (as : List Advisor) :
    Sorting.leftOver precedence as ≠ [] ↔ Knotted as := by
  refine ⟨fun h => ?_, leftOver_ne_nil_of_knotted⟩
  exact (knotted_of_blocked h (Sorting.arranged_sorted precedence as).blocked).mono
    (Sorting.leftOver_sublist precedence as).subset

/-- Sorting leaves advisors in input order, and warns that it does, exactly if three advisors of one rank
and one aspect make a knot. -/
theorem sort_stuck_iff_knotted (as : List Advisor) :
    ((sort as).stuck ≠ 0 ↔ Knotted as) ∧ ((sort as).warnings ≠ [] ↔ Knotted as) := by
  have hstuck : (sort as).stuck ≠ 0 ↔ Knotted as := by
    rw [← leftOver_ne_nil_iff, sort, Sorting.stuck_eq]
    exact List.length_eq_zero_iff.not
  refine ⟨hstuck, ?_⟩
  rw [← hstuck, Sorted.warnings]
  split
  next h => simp [h]
  next h => simp [h]

end Advisor
end Weaving
