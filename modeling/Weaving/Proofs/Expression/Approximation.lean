import Weaving.Proofs.Pointcut.Algebra
import Weaving.Proofs.Resolution

/-! Expressions before there are arguments. An expression that looks at arguments is asked twice, for the
method when the chain is resolved and for the arguments of each call. The first answer is never narrower
than the second, so whatever advice some arguments call for is in the chain; and where nothing looks at
arguments the two answers are the same. -/
namespace Weaving

namespace Expression

variable {e : Expression} {m : Method} {c : Option Class}

/-- What does not look at arguments has one answer, whether there are any or not. -/
theorem evaluate_of_static (h : e.isRuntime = false) (arguments : Option (List Value)) :
    e.evaluate m c arguments = e.accepts m c := by
  induction e with
  | args test => contradiction
  | and a b iha ihb =>
    obtain ⟨ha, hb⟩ := Bool.or_eq_false_iff.mp h
    rw [evaluate, iha ha, ihb hb]
    rfl
  | or a b iha ihb =>
    obtain ⟨ha, hb⟩ := Bool.or_eq_false_iff.mp h
    rw [evaluate, iha ha, ihb hb]
    rfl
  | not a ih =>
    have ha : a.isRuntime = false := h
    simp only [accepts, evaluate, ha, Bool.and_false, Bool.false_eq_true, if_false, ih ha]
  | _ => rfl

/-- Whatever is accepted with arguments is accepted without. -/
theorem accepts_of_evaluate {arguments : Option (List Value)}
    (h : e.evaluate m c arguments = true) : e.accepts m c = true := by
  induction e with
  | args test => rfl
  | and a b iha ihb =>
    obtain ⟨ha, hb⟩ := Bool.and_eq_true_iff.mp h
    exact Bool.and_eq_true_iff.mpr ⟨iha ha, ihb hb⟩
  | or a b iha ihb =>
    obtain ha | hb := Bool.or_eq_true_iff.mp h
    · exact Bool.or_eq_true_iff.mpr (.inl (iha ha))
    · exact Bool.or_eq_true_iff.mpr (.inr (ihb hb))
  | not a =>
    -- A negation turns the direction round, so the answers of its part do not help here: either the part
    -- looks at arguments, and the negation accepts, or the two answers are the same.
    cases hr : a.isRuntime with
    | true => simp [accepts, evaluate, hr]
    | false => rwa [evaluate_of_static (e := not a) hr] at h
  | _ => exact h

/-- The elements of an advisor with an expression admit the calls whose arguments the expression accepts,
whether they ask it again or not. -/
theorem admits_eq (hmatch : e.accepts m c = true) (i : Interceptor) {v : Invocation}
    (hm : v.method = m) (hc : v.targetClass = c) :
    (⟨i, if (MethodMatcher.expression e).isRuntime then some (.expression e) else none⟩ :
      Element).admits v = .ok (e.acceptsArgs m c v.arguments) := by
  cases hr : (MethodMatcher.expression e).isRuntime with
  | true => simp [Element.admits, MethodMatcher.acceptsArgs, hm, hc]
  | false =>
    have hargs : e.acceptsArgs m c v.arguments = true := (evaluate_of_static hr _).trans hmatch
    simp [Element.admits, hargs]

/-- Asked without arguments an expression accepts whatever it accepts with some, and the same if it looks at
none. So advice that some arguments call for is never left out when the chain is resolved: each of its
interceptors is there, and admits just the calls whose arguments the expression accepts. -/
theorem static_over_approximates (e : Expression) (m : Method) (c : Option Class) :
    (∀ args, e.acceptsArgs m c args = true → e.accepts m c = true) ∧
    (e.isRuntime = false → ∀ args, e.acceptsArgs m c args = e.accepts m c) ∧
    ∀ (f : ClassFilter) (advice : Advice) (a : Advisor) (as : List Advisor),
      a.role = .pointcut ⟨f, .expression e⟩ advice → a ∈ as → f.accepts (Chain.classOf m c) = true →
      ∀ args, e.acceptsArgs m (some (Chain.classOf m c)) args = true →
      ∀ (adapters : Adapters) (r : Resolution), (Chain.resolve adapters as m c).1 = .ok r →
        ∃ is, adapters.interceptors a = .ok is ∧ is ≠ [] ∧ ∀ i ∈ is, ∃ x ∈ r.chain,
          x.interceptor = i ∧ ∀ v : Invocation, v.method = m →
            v.targetClass = some (Chain.classOf m c) →
              x.admits v = .ok (e.acceptsArgs m (some (Chain.classOf m c)) v.arguments) := by
  refine ⟨fun args h => accepts_of_evaluate h, fun h args => evaluate_of_static h _, ?_⟩
  intro f advice a as hrole ha hf args hargs adapters r hr
  have haccepts : e.accepts m (some (Chain.classOf m c)) = true := accepts_of_evaluate hargs
  have hmatch : Chain.match? m (Chain.classOf m c) (Advisor.introduces as (Chain.classOf m c)) a =
      some (a, if (MethodMatcher.expression e).isRuntime then some (.expression e) else none) := by
    simp [Chain.match?, hrole, hf, MethodMatcher.acceptsStatic, MethodMatcher.accepts, haccepts]
  obtain ⟨is, his, hmem⟩ := Chain.mem_resolve_of_matched hr (Chain.mem_matched.mpr ⟨ha, hmatch⟩)
  exact ⟨is, his, Adapters.interceptors_ne_nil his, fun i hi =>
    ⟨_, hmem i hi, rfl, fun v hm hc => admits_eq haccepts i hm hc⟩⟩

/-- Transfers, but for those with a single argument. -/
def transfers : Expression := and (method "transfer*") (not (args fun vs => vs.length = 1))

def transferAll : Method := ⟨"Bank", "transferAll", []⟩

def guard : Advisor :=
  ⟨.pointcut (.ofExpression transfers) (.around ⟨"guard", Program.proceed⟩), none, none⟩

theorem resolve_guard : (Chain.resolve .builtIn [guard] transferAll none).1 =
    .ok ⟨[⟨⟨"guard", Program.proceed⟩, some (.expression transfers)⟩], false⟩ := by
  have hmatched : Chain.matched [guard] transferAll (Chain.classOf transferAll none) =
      [(guard, some (.expression transfers))] := rfl
  simp only [Chain.resolve, hmatched, Advisor.sortBy, topologicalSort_singleton]
  rfl

theorem transfers_guarded : ∃ r, (Chain.resolve .builtIn [guard] transferAll none).1 = .ok r ∧
    ∃ x ∈ r.chain, ∀ v : Invocation, v.method = transferAll → v.targetClass = some (.named "Bank") →
      x.admits v = .ok (transfers.acceptsArgs transferAll (some (.named "Bank")) v.arguments) := by
  obtain ⟨is, -, hne, his⟩ := (static_over_approximates transfers transferAll none).2.2
    (.expression transfers) _ guard [guard] rfl (by simp) (by decide) [] (by decide) .builtIn _
    resolve_guard
  obtain ⟨i, hi⟩ := List.exists_mem_of_ne_nil is hne
  obtain ⟨x, hx, -, hadmits⟩ := his i hi
  exact ⟨_, resolve_guard, x, hx, hadmits⟩

end Expression
end Weaving
