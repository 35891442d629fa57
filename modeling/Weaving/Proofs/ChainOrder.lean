import Weaving.Proofs.Pointcut.Algebra
import Weaving.Proofs.Precedence.Oriented
import Weaving.Proofs.Resolution

/-! The order of chains. The advisors that take part in the chain of a method are sorted once more when it is
resolved. Whatever part of a sorted list they are, they are in order already; so all chains that are
resolved from one sorted list have its order. -/
namespace Weaving.Chain

variable {as : List Advisor} {m : Method} {c : Class}

/-- Whether an advisor takes part in the chain of a method that is resolved from a list of advisors. -/
def takesPart (as : List Advisor) (m : Method) (c : Class) (a : Advisor) : Bool :=
  (match? m c (Advisor.introduces as c) a).isSome

theorem map_fst_matched (as : List Advisor) (m : Method) (c : Class) :
    (matched as m c).map Prod.fst = as.filter (takesPart as m c) := by
  unfold matched takesPart
  generalize Advisor.introduces as c = introductions
  induction as with
  | nil => rfl
  | cons a as ih =>
    cases h : match? m c introductions a with
    | none => simp [h, ih]
    | some x =>
      obtain rfl := eq_of_match? h
      simp [h, ih]

/-- What takes part in a chain is in order if the list is that it is taken from. -/
theorem sortBy_matched (h : as.Pairwise fun a b => Advisor.precedence b a ≠ .lt) (m : Method) (c : Class) :
    Advisor.sortBy Prod.fst (matched as m c) = ⟨matched as m c, 0⟩ := by
  have hmatched : ((matched as m c).map Prod.fst).Pairwise fun a b => Advisor.precedence b a ≠ .lt := by
    rw [map_fst_matched]
    exact h.filter _
  exact Sorting.topologicalSort_of_ordered (List.pairwise_map.mp hmatched)

/-- The elements of a chain hold the interceptors of each advisor in turn. -/
theorem interceptors_of_parts {adapters : Adapters} {xs : List Match} {parts : List Chain}
    (h : xs.mapM (elements adapters) = .ok parts) :
    (xs.map Prod.fst).mapM adapters.interceptors =
      .ok (parts.map fun part => part.map Element.interceptor) := by
  induction xs generalizing parts with
  | nil =>
    cases h
    rfl
  | cons x xs ih =>
    obtain ⟨part, rest, hx, hxs, rfl⟩ := mapM_cons_eq_ok.mp h
    obtain ⟨is, his, rfl⟩ := elements_eq_ok.mp hx
    refine mapM_cons_eq_ok.mpr ⟨is, _, his, ih hxs, ?_⟩
    simp [Function.comp_def]

/-- All chains that are resolved from one sorted list have its order. If advisors that have been sorted have no
cycle, then for every method and class those that take part are not moved by the second sort; the chain,
if there is one, consists of the interceptors of exactly these advisors in the order of the sorted list;
and of two of them the one that stands first there does so in the chain. -/
theorem resolve_keeps_order {as : List Advisor}
    (acyclic : Sorting.Acyclic (Sorting.Constraint Advisor.precedence as)) (m : Method)
    (c : Option Class) :
    let sorted := (Advisor.sort as).items
    let taking := sorted.filter (takesPart sorted m (classOf m c))
    let found := matched sorted m (classOf m c)
    Advisor.sortBy Prod.fst found = ⟨found, 0⟩ ∧ found.map Prod.fst = taking ∧
      (∀ (adapters : Adapters) (r : Resolution), (resolve adapters sorted m c).1 = .ok r →
        ∃ parts, taking.mapM adapters.interceptors = .ok parts ∧
          r.chain.map Element.interceptor = parts.flatten) ∧
      ∀ a b : Advisor, [a, b].Sublist taking ↔ [a, b].Sublist sorted ∧
        takesPart sorted m (classOf m c) a = true ∧ takesPart sorted m (classOf m c) b = true := by
  intro sorted taking found
  have hsort := sortBy_matched (Sorting.ordered_of_acyclic acyclic) m (classOf m c)
  have htaking : found.map Prod.fst = taking := map_fst_matched sorted m (classOf m c)
  refine ⟨hsort, htaking, fun adapters r hr => ?_, fun a b => ⟨fun h => ?_, fun ⟨h, ha, hb⟩ => ?_⟩⟩
  · obtain ⟨parts, hparts, hchain, -⟩ := parts_of_resolve hr
    rw [show (Advisor.sortBy Prod.fst (matched sorted m (classOf m c))).items = found from
      congrArg Sorted.items hsort] at hparts
    refine ⟨_, htaking ▸ interceptors_of_parts hparts, ?_⟩
    rw [hchain, List.map_flatten]
  · have hmem := h.subset
    exact ⟨h.trans List.filter_sublist, (List.mem_filter.mp (hmem (by simp))).2,
      (List.mem_filter.mp (hmem (by simp))).2⟩
  · simpa [ha, hb] using h.filter (takesPart sorted m (classOf m c))

/-- Advice of two aspects. The one declares last in the list what comes first in it, the other is for
another method than the rest. -/
def roster : List Advisor :=
  let declare (p : Pointcut) (name aspect : String) (declaration : Nat) : Advisor :=
    ⟨.pointcut p (.around ⟨name, Program.proceed⟩), none, some ⟨aspect, declaration, .around⟩⟩
  [declare .any "count" "Audit" 1, declare ⟨.any, .names ["load"]⟩ "keep" "Cache" 0,
    declare .any "sign" "Audit" 0]

theorem roster_keeps_order :
    let sorted := (Advisor.sort roster).items
    let taking := sorted.filter (takesPart sorted ⟨"Ledger", "save", []⟩ (.named "Ledger"))
    Sorting.Acyclic (Sorting.Constraint Advisor.precedence roster) ∧
      ∃ r parts, (resolve .builtIn sorted ⟨"Ledger", "save", []⟩ none).1 = .ok r ∧
        r.chain.map (fun e => e.interceptor.name) = ["sign", "count"] ∧
        taking.mapM (Adapters.interceptors .builtIn) = .ok parts ∧
        r.chain.map Element.interceptor = parts.flatten := by
  have hacyclic : Sorting.Acyclic (Sorting.Constraint Advisor.precedence roster) := by
    rw [Sorting.acyclic_iff_stuck]
    decide +kernel
  have hnames : (resolve .builtIn (Advisor.sort roster).items ⟨"Ledger", "save", []⟩ none).1.map
      (fun r => r.chain.map fun e => e.interceptor.name) = .ok ["sign", "count"] := by
    decide +kernel
  intro sorted taking
  cases hr : (resolve .builtIn sorted ⟨"Ledger", "save", []⟩ none).1 with
  | error f =>
    rw [hr] at hnames
    contradiction
  | ok r =>
    rw [hr] at hnames
    obtain ⟨parts, hparts, hchain⟩ := (resolve_keeps_order hacyclic _ none).2.2.1 _ r hr
    exact ⟨hacyclic, r, parts, rfl, Except.ok.inj hnames, hparts, hchain⟩

end Weaving.Chain
