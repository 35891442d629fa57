import Mathlib.Tactic.Tauto
import Weaving.Chain

/-! Pointcuts as a Boolean algebra. Whether a pointcut applies to a call is decided in three phases: the
filter on the class, the matcher on the method, and for a runtime matcher the matcher on the arguments.
However pointcuts and matchers are combined, the three phases together come to the union, the
intersection and the restriction of the calls that the parts apply to. -/
namespace Weaving

namespace MethodMatcher

/-- A matcher applies to a call: it accepts the method, and the arguments if it looks at them. -/
def Applies (x : MethodMatcher) (m : Method) (c : Class) (introductions : Bool) (args : List Value) :
    Prop :=
  x.acceptsStatic m (some c) introductions = true ∧
    (x.isRuntime = true → x.acceptsArgs m (some c) args = .ok true)

/-- Matchers composed of the leaves that there are, none with a decision of its own on introductions.
Custom leaves that are asked about arguments must answer. -/
inductive Composed : MethodMatcher → Prop
  | any : Composed any
  | names (patterns : List String) : Composed (names patterns)
  | tests (t : NameTests) : Composed (tests t)
  | expression (e : Expression) : Composed (expression e)
  | arguments (s : MethodMatcher) (test : Method → List Value → Bool) : Composed (arguments s test)
  | custom (x : CustomMatcher) (plain : x.aware = none)
      (answers : x.isRuntime = true → x.acceptsArgs.isSome = true) : Composed (custom x)
  | union {a b : MethodMatcher} (left : Composed a) (right : Composed b) : Composed (union a b)
  | intersection {a b : MethodMatcher} (left : Composed a) (right : Composed b) :
      Composed (intersection a b)
  | within {x : MethodMatcher} (f : ClassFilter) (inner : Composed x) : Composed (within f x)

variable {m : Method} {c : Class} {introductions : Bool} {args : List Value} {a b x : MethodMatcher}

/-- A composed matcher does not care about introductions. -/
theorem Composed.acceptsStatic_eq (h : Composed x) (m : Method) (c : Option Class)
    (introductions : Bool) : x.acceptsStatic m c introductions = x.accepts m c := by
  induction h with
  | any | names | tests | expression | arguments => rfl
  | custom x plain => simp [acceptsStatic, accepts, plain]
  | union _ _ iha ihb => simp [acceptsStatic, accepts, iha, ihb]
  | intersection _ _ iha ihb => simp [acceptsStatic, accepts, iha, ihb]
  | within f _ ih => simp [acceptsStatic, accepts, ih]

/-- What a union answers about arguments, if its sides that look at arguments answer. -/
theorem acceptsArgs_union {c : Option Class} {u v : Bool}
    (hu : a.isRuntime = true → a.acceptsArgs m c args = .ok u)
    (hv : b.isRuntime = true → b.acceptsArgs m c args = .ok v) :
    (union a b).acceptsArgs m c args =
      .ok (a.accepts m c && (!a.isRuntime || u) || b.accepts m c && (!b.isRuntime || v)) := by
  cases ha : a.accepts m c <;> cases hb : b.accepts m c <;> cases hra : a.isRuntime <;>
    cases hrb : b.isRuntime <;> simp_all [acceptsArgs] <;> cases u <;> rfl

theorem acceptsArgs_intersection {c : Option Class} {u v : Bool}
    (hu : a.isRuntime = true → a.acceptsArgs m c args = .ok u)
    (hv : b.isRuntime = true → b.acceptsArgs m c args = .ok v) :
    (intersection a b).acceptsArgs m c args = .ok ((!a.isRuntime || u) && (!b.isRuntime || v)) := by
  cases hra : a.isRuntime <;> cases hrb : b.isRuntime <;> simp_all [acceptsArgs] <;> rfl

/-- The leaves of a matcher that are asked about arguments answer. -/
def Answers : MethodMatcher → Prop
  | custom x => x.isRuntime = true → x.acceptsArgs.isSome = true
  | union a b | intersection a b => a.Answers ∧ b.Answers
  | within _ x => x.Answers
  | _ => True

/-- A matcher that looks at arguments has an answer for all of them: it does not ask its static parts. -/
theorem Answers.acceptsArgs_ok (h : x.Answers) (m : Method) (c : Option Class) (args : List Value) :
    ∃ u, x.isRuntime = true → x.acceptsArgs m c args = .ok u := by
  induction x with
  | any | names | tests => exact ⟨true, by simp [isRuntime]⟩
  | expression e => exact ⟨e.acceptsArgs m c args, fun _ => rfl⟩
  | arguments s test => exact ⟨test m args, fun _ => rfl⟩
  | custom x =>
    cases hx : x.acceptsArgs with
    | none => exact ⟨true, fun hr => by simpa [hx] using h hr⟩
    | some decide => exact ⟨decide m c args, fun _ => by simp [acceptsArgs, hx]⟩
  | union a b iha ihb =>
    obtain ⟨u, hu⟩ := iha h.1
    obtain ⟨v, hv⟩ := ihb h.2
    exact ⟨_, fun _ => acceptsArgs_union hu hv⟩
  | intersection a b iha ihb =>
    obtain ⟨u, hu⟩ := iha h.1
    obtain ⟨v, hv⟩ := ihb h.2
    exact ⟨_, fun _ => acceptsArgs_intersection hu hv⟩
  | within f x ih => exact ih h

theorem Composed.answers (h : Composed x) : x.Answers := by
  induction h with
  | any | names | tests | expression | arguments => trivial
  | custom x _ answers => exact answers
  | union _ _ iha ihb => exact ⟨iha, ihb⟩
  | intersection _ _ iha ihb => exact ⟨iha, ihb⟩
  | within f _ ih => exact ih

/-- The three phases of a composed matcher as one Boolean. -/
theorem Composed.applies_iff (h : Composed x) {u : Bool}
    (hu : x.isRuntime = true → x.acceptsArgs m (some c) args = .ok u) :
    x.Applies m c introductions args ↔
      (x.accepts m (some c) && (!x.isRuntime || u)) = true := by
  unfold Applies
  rw [h.acceptsStatic_eq]
  cases hr : x.isRuntime with
  | false => simp
  | true => simp [hu hr]

/-- A union remembers which side accepted the method when it is asked about the arguments. -/
theorem applies_union (ha : Composed a) (hb : Composed b) :
    (union a b).Applies m c introductions args ↔
      a.Applies m c introductions args ∨ b.Applies m c introductions args := by
  obtain ⟨u, hu⟩ := ha.answers.acceptsArgs_ok m (some c) args
  obtain ⟨v, hv⟩ := hb.answers.acceptsArgs_ok m (some c) args
  rw [(ha.union hb).applies_iff fun _ => acceptsArgs_union hu hv, ha.applies_iff hu,
    hb.applies_iff hv, ← Bool.or_eq_true]
  simp only [accepts, isRuntime]
  generalize a.accepts m (some c) = p, b.accepts m (some c) = q, a.isRuntime = r, b.isRuntime = s
  clear hu hv
  revert p q r s u v
  decide

theorem applies_intersection (ha : Composed a) (hb : Composed b) :
    (intersection a b).Applies m c introductions args ↔
      a.Applies m c introductions args ∧ b.Applies m c introductions args := by
  obtain ⟨u, hu⟩ := ha.answers.acceptsArgs_ok m (some c) args
  obtain ⟨v, hv⟩ := hb.answers.acceptsArgs_ok m (some c) args
  rw [(ha.intersection hb).applies_iff fun _ => acceptsArgs_intersection hu hv, ha.applies_iff hu,
    hb.applies_iff hv, ← Bool.and_eq_true]
  simp only [accepts, isRuntime]
  generalize a.accepts m (some c) = p, b.accepts m (some c) = q, a.isRuntime = r, b.isRuntime = s
  clear hu hv
  revert p q r s u v
  decide

theorem applies_within {f : ClassFilter} :
    (within f x).Applies m c introductions args ↔
      f.accepts c = true ∧ x.Applies m c introductions args := by
  simp [Applies, acceptsStatic, acceptsArgs, isRuntime, classOf, and_assoc]

theorem applies_arguments {test : Method → List Value → Bool} (hx : Composed x)
    (static : x.isRuntime = false) :
    (arguments x test).Applies m c introductions args ↔
      x.Applies m c introductions args ∧ test m args = true := by
  simp [Applies, static, acceptsArgs, isRuntime, hx.acceptsStatic_eq, acceptsStatic, accepts]

end MethodMatcher

namespace Pointcut

/-- A pointcut applies to a call: its filter accepts the class, and its matcher applies. -/
def Applies (p : Pointcut) (m : Method) (c : Class) (introductions : Bool) (args : List Value) :
    Prop :=
  p.classFilter.accepts c = true ∧ p.methodMatcher.Applies m c introductions args

/-- Pointcuts built from filters, composed matchers and expressions in any order and nesting. -/
inductive Built : Pointcut → Prop
  | parts (f : ClassFilter) {x : MethodMatcher} (composed : x.Composed) : Built ⟨f, x⟩
  | expression (e : Expression) : Built (ofExpression e)
  | restrictClasses {p : Pointcut} (built : Built p) (f : ClassFilter) : Built (p.restrictClasses f)
  | restrictMethods {p : Pointcut} {x : MethodMatcher} (built : Built p) (composed : x.Composed) :
      Built (p.restrictMethods x)
  | intersection {p q : Pointcut} (left : Built p) (right : Built q) : Built (p.intersection q)
  | union {p q : Pointcut} (left : Built p) (right : Built q) : Built (p.union q)

theorem Built.composed {p : Pointcut} (h : p.Built) : p.methodMatcher.Composed := by
  induction h with
  | parts f composed => exact composed
  | expression e => exact .expression e
  | restrictClasses _ f ih => exact ih
  | restrictMethods _ composed ih => exact ih.intersection composed
  | intersection _ _ ihp ihq => exact ihp.intersection ihq
  | union _ _ ihp ihq => exact (ihp.within _).union (ihq.within _)

variable {m : Method} {c : Class} {introductions : Bool} {args : List Value} {p q : Pointcut}

theorem applies_restrictClasses {f : ClassFilter} :
    (p.restrictClasses f).Applies m c introductions args ↔
      p.Applies m c introductions args ∧ f.accepts c = true := by
  simp only [Applies, restrictClasses, ClassFilter.accepts, Bool.and_eq_true]
  tauto

theorem applies_restrictMethods {x : MethodMatcher} (hp : p.methodMatcher.Composed)
    (hx : x.Composed) :
    (p.restrictMethods x).Applies m c introductions args ↔
      p.Applies m c introductions args ∧ x.Applies m c introductions args := by
  simp only [Applies, restrictMethods, MethodMatcher.applies_intersection hp hx, and_assoc]

theorem applies_intersection (hp : p.methodMatcher.Composed) (hq : q.methodMatcher.Composed) :
    (p.intersection q).Applies m c introductions args ↔
      p.Applies m c introductions args ∧ q.Applies m c introductions args := by
  rw [intersection, applies_restrictMethods (p := p.restrictClasses q.classFilter) hp hq,
    applies_restrictClasses, and_assoc]
  rfl

theorem applies_union (hp : p.methodMatcher.Composed) (hq : q.methodMatcher.Composed) :
    (p.union q).Applies m c introductions args ↔
      p.Applies m c introductions args ∨ q.Applies m c introductions args := by
  simp only [Applies, union, ClassFilter.accepts, Bool.or_eq_true,
    MethodMatcher.applies_union (hp.within p.classFilter) (hq.within q.classFilter),
    MethodMatcher.applies_within]
  tauto

/-- An advisor with a pointcut takes part in the calls that the pointcut applies to: it is matched for the
method, and the condition it carries into the chain admits the arguments. -/
theorem applies_iff_admits {a : Advisor} {advice : Advice} (ha : a.role = .pointcut p advice)
    (interceptor : Interceptor) {i : Invocation} (hc : i.targetClass = some c) :
    p.Applies i.method c introductions i.arguments ↔
      ∃ condition, Chain.match? i.method c introductions a = some (a, condition) ∧
        (⟨interceptor, condition⟩ : Element).admits i = .ok true := by
  simp only [Applies, MethodMatcher.Applies, Chain.match?, ha]
  by_cases hf : p.classFilter.accepts c = true <;>
    by_cases hs : p.methodMatcher.acceptsStatic i.method (some c) introductions = true <;>
    by_cases hr : p.methodMatcher.isRuntime = true <;>
    simp [hf, hs, hr, hc, Element.admits]

end Pointcut

namespace Chain

theorem eq_of_match? {m : Method} {c : Class} {introductions : Bool} {a b : Advisor}
    {condition : Option MethodMatcher} (h : match? m c introductions b = some (a, condition)) :
    b = a := by
  unfold match? at h
  split at h <;> split at h <;> simp_all

theorem mem_matched {as : List Advisor} {m : Method} {c : Class} {a : Advisor}
    {condition : Option MethodMatcher} :
    (a, condition) ∈ matched as m c ↔
      a ∈ as ∧ match? m c (Advisor.introduces as c) a = some (a, condition) := by
  rw [matched, List.mem_filterMap]
  constructor
  · rintro ⟨b, hb, h⟩
    obtain rfl := eq_of_match? h
    exact ⟨hb, h⟩
  · rintro ⟨ha, h⟩
    exact ⟨a, ha, h⟩

end Chain

namespace Pointcut

/-- Pointcuts form a Boolean algebra of calls, decided in three phases. For pointcuts and matchers built
in any way, a union applies exactly if a side applies, an intersection exactly if both do, and a
restriction exactly if the pointcut applies and the filter or matcher accepts; and an advisor takes part
in exactly the calls that its pointcut applies to. -/
theorem applies_algebra {p q : Pointcut} (hp : p.Built) (hq : q.Built) {x y : MethodMatcher}
    (hx : x.Composed) (hy : y.Composed) (f : ClassFilter) (m : Method) (c : Class)
    (introductions : Bool) (args : List Value) :
    ((p.union q).Applies m c introductions args ↔
      p.Applies m c introductions args ∨ q.Applies m c introductions args) ∧
    ((p.intersection q).Applies m c introductions args ↔
      p.Applies m c introductions args ∧ q.Applies m c introductions args) ∧
    ((p.restrictClasses f).Applies m c introductions args ↔
      p.Applies m c introductions args ∧ f.accepts c = true) ∧
    ((p.restrictMethods x).Applies m c introductions args ↔
      p.Applies m c introductions args ∧ x.Applies m c introductions args) ∧
    ((MethodMatcher.union x y).Applies m c introductions args ↔
      x.Applies m c introductions args ∨ y.Applies m c introductions args) ∧
    ((MethodMatcher.intersection x y).Applies m c introductions args ↔
      x.Applies m c introductions args ∧ y.Applies m c introductions args) ∧
    (x.isRuntime = false → ∀ test, (MethodMatcher.arguments x test).Applies m c introductions args ↔
      x.Applies m c introductions args ∧ test m args = true) ∧
    ∀ (as : List Advisor) (a : Advisor) (advice : Advice), a ∈ as → a.role = .pointcut p advice →
      ∀ (interceptor : Interceptor) (i : Invocation), i.targetClass = some c →
        (p.Applies i.method c (Advisor.introduces as c) i.arguments ↔
          ∃ condition, (a, condition) ∈ Chain.matched as i.method c ∧
            (⟨interceptor, condition⟩ : Element).admits i = .ok true) := by
  refine ⟨applies_union hp.composed hq.composed, applies_intersection hp.composed hq.composed,
    applies_restrictClasses, applies_restrictMethods hp.composed hx,
    MethodMatcher.applies_union hx hy, MethodMatcher.applies_intersection hx hy,
    fun static _ => MethodMatcher.applies_arguments hx static, ?_⟩
  intro as a advice ha hrole interceptor i hc
  rw [applies_iff_admits hrole interceptor hc]
  simp only [Chain.mem_matched, ha, true_and]

/-- A call with two arguments, which only the static side of a mixed union accepts. -/
theorem applies_union_mixed :
    ((ofExpression (.args fun vs => vs.length = 1)).union
        ⟨.name "Repo*", .union (.names ["save"]) (.arguments .any fun _ vs => vs.isEmpty)⟩).Applies
      ⟨"Repo", "save", []⟩ (.named "RepoImpl") false [.unit, .unit] :=
  (applies_algebra (.expression _) (.parts _ (.union (.names _) (.arguments _ _))) .any .any .any _ _
    _ _).1.2 (.inr ⟨by decide, by decide, fun _ => rfl⟩)

end Pointcut

end Weaving
