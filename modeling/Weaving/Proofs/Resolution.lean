import Weaving.Chain
import Weaving.Proofs.Precedence.Sorting

/-! Resolution. What is matched is sorted and turned into elements, each of which carries the condition
of the match that it comes from; so a resolution that may be kept has no element with a condition. -/
namespace Weaving

theorem mem_of_mem_topologicalSort {α : Type} {compare : α → α → Ordering} {xs : List α} {x : α}
    (h : x ∈ (topologicalSort compare xs).items) : x ∈ xs :=
  (Sorting.perm_topologicalSort compare xs).mem_iff.mp h

theorem placeFirst_nil (before : Nat → Nat → Bool) : placeFirst before [] = ([], []) := by
  unfold placeFirst
  rfl

theorem topologicalSort_singleton {α : Type} (compare : α → α → Ordering) (x : α) :
    topologicalSort compare [x] = ⟨[x], 0⟩ := by
  have h : constrains compare [x] 0 0 = false := by simp [constrains]
  have hplace : placeFirst (constrains compare [x]) [0] = ([0], []) := by
    unfold placeFirst
    split
    next hn => simp [h] at hn
    next i hi =>
      obtain rfl : i = 0 := by simpa [h, eq_comm] using hi
      simp [placeFirst_nil]
  simp [topologicalSort, hplace]

theorem mapM_cons_eq_ok {ε α β : Type} {f : α → Except ε β} {x : α} {xs : List α} {ys : List β} :
    (x :: xs).mapM f = .ok ys ↔ ∃ y zs, f x = .ok y ∧ xs.mapM f = .ok zs ∧ y :: zs = ys := by
  rw [List.mapM_cons]
  cases f x with
  | error e => simp [bind, Except.bind]
  | ok y =>
    cases xs.mapM f with
    | error e => simp [bind, Except.bind]
    | ok zs => simp [bind, Except.bind, pure, Except.pure]

theorem exists_of_mem_mapM {ε α β : Type} {f : α → Except ε β} {xs : List α} {ys : List β}
    (h : xs.mapM f = .ok ys) {y : β} (hy : y ∈ ys) : ∃ x ∈ xs, f x = .ok y := by
  induction xs generalizing ys with
  | nil =>
    cases h
    simp at hy
  | cons x xs ih =>
    obtain ⟨z, zs, hx, hxs, rfl⟩ := mapM_cons_eq_ok.mp h
    obtain rfl | hy := List.mem_cons.mp hy
    · exact ⟨x, by simp, hx⟩
    · obtain ⟨w, hw, hfw⟩ := ih hxs hy
      exact ⟨w, by simp [hw], hfw⟩

theorem exists_of_mapM_eq_ok {ε α β : Type} {f : α → Except ε β} {xs : List α} {ys : List β}
    (h : xs.mapM f = .ok ys) {x : α} (hx : x ∈ xs) : ∃ y ∈ ys, f x = .ok y := by
  induction xs generalizing ys with
  | nil => simp at hx
  | cons z xs ih =>
    obtain ⟨y, zs, hz, hzs, rfl⟩ := mapM_cons_eq_ok.mp h
    obtain rfl | hx := List.mem_cons.mp hx
    · exact ⟨y, by simp, hz⟩
    · obtain ⟨w, hw, hfw⟩ := ih hzs hx
      exact ⟨w, by simp [hw], hfw⟩

/-- An advisor that is turned into interceptors becomes at least one. -/
theorem Adapters.interceptors_ne_nil {adapters : Adapters} {a : Advisor} {is : List Interceptor}
    (h : adapters.interceptors a = .ok is) : is ≠ [] := by
  unfold Adapters.interceptors at h
  cases hr : a.role with
  | introduction i =>
    simp only [hr] at h
    cases h
    simp
  | pointcut p advice =>
    simp only [hr, Adapters.interceptorsOf] at h
    cases hadapted : (adapters.filter fun x => x.supports advice).mapM fun x => x.adapt advice with
    | error f =>
      rw [hadapted] at h
      cases h
    | ok adapted =>
      rw [hadapted] at h
      simp only [bind, Except.bind] at h
      split at h
      next => cases h
      next hne =>
        cases h
        exact hne

namespace Chain

theorem elements_eq_ok {adapters : Adapters} {x : Match} {chain : Chain} :
    elements adapters x = .ok chain ↔
      ∃ is, adapters.interceptors x.1 = .ok is ∧ is.map (fun i => ⟨i, x.2⟩) = chain := by
  unfold elements
  cases adapters.interceptors x.1 with
  | error f => simp [bind, Except.bind]
  | ok is => simp [bind, Except.bind, pure, Except.pure]

theorem condition_of_mem_elements {adapters : Adapters} {x : Match} {chain : Chain}
    (h : elements adapters x = .ok chain) {e : Element} (he : e ∈ chain) : e.condition = x.2 := by
  obtain ⟨is, -, rfl⟩ := elements_eq_ok.mp h
  obtain ⟨i, -, rfl⟩ := List.mem_map.mp he
  rfl

/-- A resolved chain consists of the elements of the matches, sorted by their advisors; it may be kept
if no match carries a condition. -/
theorem parts_of_resolve {adapters : Adapters} {as : List Advisor} {m : Method}
    {c : Option Class} {r : Resolution} (h : (resolve adapters as m c).1 = .ok r) :
    ∃ parts, (Advisor.sortBy Prod.fst (matched as m (classOf m c))).items.mapM (elements adapters) =
        .ok parts ∧ r.chain = parts.flatten ∧
      r.cacheable = (matched as m (classOf m c)).all fun x => x.2.isNone := by
  unfold resolve at h
  split at h
  next hnil =>
    have hitems : (Advisor.sortBy Prod.fst (matched as m (classOf m c))).items = [] := by
      apply List.eq_nil_iff_forall_not_mem.mpr
      intro x hx
      simpa [hnil] using mem_of_mem_topologicalSort hx
    cases h
    exact ⟨[], by rw [hitems]; rfl, rfl, by simp [hnil]⟩
  next =>
    cases hparts : (Advisor.sortBy Prod.fst (matched as m (classOf m c))).items.mapM
        (elements adapters) with
    | error f => simp [hparts, Except.map] at h
    | ok parts =>
      simp only [hparts, Except.map, Except.ok.injEq] at h
      subst h
      exact ⟨parts, rfl, rfl, rfl⟩

/-- Every element of a resolved chain comes from a match, whose condition it carries. -/
theorem exists_match_of_mem_resolve {adapters : Adapters} {as : List Advisor} {m : Method}
    {c : Option Class} {r : Resolution} (h : (resolve adapters as m c).1 = .ok r) {e : Element}
    (he : e ∈ r.chain) : ∃ x ∈ matched as m (classOf m c), e.condition = x.2 := by
  obtain ⟨parts, hparts, hchain, -⟩ := parts_of_resolve h
  rw [hchain] at he
  obtain ⟨part, hpart, he⟩ := List.mem_flatten.mp he
  obtain ⟨x, hx, hpx⟩ := exists_of_mem_mapM hparts hpart
  exact ⟨x, mem_of_mem_topologicalSort hx, condition_of_mem_elements hpx he⟩

/-- The interceptors of an advisor that takes part are all in the chain, under the condition of the match. -/
theorem mem_resolve_of_matched {adapters : Adapters} {as : List Advisor} {m : Method}
    {c : Option Class} {r : Resolution} (h : (resolve adapters as m c).1 = .ok r) {x : Match}
    (hx : x ∈ matched as m (classOf m c)) :
    ∃ is, adapters.interceptors x.1 = .ok is ∧ ∀ i ∈ is, (⟨i, x.2⟩ : Element) ∈ r.chain := by
  obtain ⟨parts, hparts, hchain, -⟩ := parts_of_resolve h
  have hsorted : x ∈ (Advisor.sortBy Prod.fst (matched as m (classOf m c))).items :=
    (Sorting.perm_topologicalSort _ _).mem_iff.mpr hx
  obtain ⟨part, hpart, hx⟩ := exists_of_mapM_eq_ok hparts hsorted
  obtain ⟨is, his, rfl⟩ := elements_eq_ok.mp hx
  refine ⟨is, his, fun i hi => ?_⟩
  rw [hchain]
  exact List.mem_flatten.mpr ⟨_, hpart, List.mem_map.mpr ⟨i, hi, rfl⟩⟩

/-- A chain that may be kept looks at no arguments. -/
theorem isDynamic_eq_false_of_cacheable {adapters : Adapters} {as : List Advisor} {m : Method}
    {c : Option Class} {r : Resolution} (h : (resolve adapters as m c).1 = .ok r)
    (hr : r.cacheable = true) {e : Element} (he : e ∈ r.chain) : e.isDynamic = false := by
  obtain ⟨x, hx, hcondition⟩ := exists_match_of_mem_resolve h he
  obtain ⟨-, -, -, hcacheable⟩ := parts_of_resolve h
  rw [hcacheable, List.all_eq_true] at hr
  simpa [Element.isDynamic, hcondition] using hr x hx

end Chain
end Weaving
