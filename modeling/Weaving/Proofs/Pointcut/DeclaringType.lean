import Weaving.Proofs.Expression.TypePattern
import Weaving.Proofs.Pointcut.Algebra
import Weaving.Proofs.Resolution
import Weaving.Proofs.Text.Wildcards

/-! Methods without a class. What decides on a method alone decides as it would for the class that is nothing
but its declaring type. So the elements of a chain that is resolved for that class, since the target class
is not known, may be asked about calls without a class. -/
namespace Weaving

variable {m : Method}

/-- The class of which only the declaring type of a method is known. -/
def Method.home (m : Method) : Class := .named m.declaring

@[simp] theorem Class.provides_named (n type : String) : (named n).provides type = decide (n = type) := by
  simp [provides, lineage, Declaration.provides, named]

namespace TypePattern

theorem plain_or_plus (p : TypePattern) : p.Plain ∨ ∃ q : TypePattern, p = q.plus := by
  by_cases h : p.Plain
  · exact .inl h
  · obtain ⟨s, hs⟩ : ∃ s, p.text = s ++ "+" := by simpa [Plain] using h
    exact .inr ⟨⟨s⟩, congrArg TypePattern.mk hs⟩

/-- A pattern that names the class of nothing but the declaring type names the declaring type. -/
theorem accepts_declaring_of_acceptsClass {p : TypePattern} (hm : '+' ∉ m.declaring.toList)
    (h : p.acceptsClass m.home = true) : Glob.accepts p.bare m.declaring = true := by
  obtain hp | ⟨q, rfl⟩ := p.plain_or_plus
  · obtain ⟨type, hprovides, haccepts⟩ := hp.acceptsClass_iff.mp h
    obtain rfl : m.declaring = type := by simpa [Method.home] using hprovides
    rwa [hp.bare]
  · -- the pattern is the declaring type with a plus, and there is no other plus in it
    rw [acceptsClass_plus] at h
    have hq : m.declaring = q.text := by simpa [Method.home] using h
    have hplain : q.Plain := plain_iff.mpr fun hlast => hm (hq ▸ List.mem_of_getLast? hlast)
    rw [bare_plus, hplain.bare, hq]
    exact Glob.accepts_self _

theorem acceptsMethod_home (p : TypePattern) (hm : '+' ∉ m.declaring.toList) :
    p.acceptsMethod m (some m.home) = p.acceptsMethod m none := by
  simp only [acceptsMethod, Option.any_some, Option.any_none, Bool.or_false, Bool.or_eq_left_iff_imp]
  exact accepts_declaring_of_acceptsClass hm

end TypePattern

namespace Expression

/-- Closures of the user's in the expression do not look at the class. -/
def Impartial : Expression → Prop
  | custom test => ∀ m c d, test m c = test m d
  | and a b | or a b => a.Impartial ∧ b.Impartial
  | not a => a.Impartial
  | _ => True

theorem evaluate_home {e : Expression} (he : e.Impartial) (hm : '+' ∉ m.declaring.toList)
    (arguments : Option (List Value)) :
    e.evaluate m (some m.home) arguments = e.evaluate m none arguments := by
  induction e with
  | type p => exact p.acceptsMethod_home hm
  | execution p name params => rw [evaluate, evaluate, p.acceptsMethod_home hm]
  | custom test => exact he m _ _
  | and a b iha ihb => rw [evaluate, evaluate, iha he.1, ihb he.2]
  | or a b iha ihb => rw [evaluate, evaluate, iha he.1, ihb he.2]
  | not a ih => rw [evaluate, evaluate, ih he]
  | all | method | typeTest | methodTest | args => rfl

end Expression

theorem NameTests.accepts_home (t : NameTests) (m : Method) :
    t.accepts m (some m.home) = t.accepts m none := by
  simp [accepts, Method.home]

/-- A custom matcher does not look at the class. -/
structure CustomMatcher.Impartial (x : CustomMatcher) : Prop where
  accepts : ∀ m c d, x.accepts m c = x.accepts m d
  acceptsArgs : ∀ decide ∈ x.acceptsArgs, ∀ m c d args, decide m c args = decide m d args
  aware : ∀ decide ∈ x.aware, ∀ m c d introductions, decide m c introductions = decide m d introductions

namespace MethodMatcher

/-- Closures of the user's in the matcher do not look at the class. Filters may, since they are always given
one. -/
def Impartial : MethodMatcher → Prop
  | any | names _ | tests _ => True
  | arguments s _ => s.Impartial
  | expression e => e.Impartial
  | custom x => x.Impartial
  | union a b | intersection a b => a.Impartial ∧ b.Impartial
  | within _ x => x.Impartial

variable {x : MethodMatcher}

theorem accepts_home (hx : x.Impartial) (hm : '+' ∉ m.declaring.toList) :
    x.accepts m (some m.home) = x.accepts m none := by
  induction x with
  | any | names => rfl
  | tests t => exact t.accepts_home m
  | arguments s test ih => exact ih hx
  | expression e => exact Expression.evaluate_home hx hm none
  | custom x => exact hx.accepts m _ _
  | union a b iha ihb => rw [accepts, accepts, iha hx.1, ihb hx.2]
  | intersection a b iha ihb => rw [accepts, accepts, iha hx.1, ihb hx.2]
  | within f x ih =>
    rw [accepts, accepts, ih hx]
    rfl

theorem acceptsStatic_home (hx : x.Impartial) (hm : '+' ∉ m.declaring.toList) (introductions : Bool) :
    x.acceptsStatic m (some m.home) introductions = x.acceptsStatic m none introductions := by
  induction x with
  | any | names | tests | arguments | expression => exact accepts_home hx hm
  | custom x =>
    cases haware : x.aware with
    | none => simpa [acceptsStatic, haware] using hx.accepts m _ _
    | some decide => simpa [acceptsStatic, haware] using hx.aware decide haware m _ _ introductions
  | union a b iha ihb => rw [acceptsStatic, acceptsStatic, iha hx.1, ihb hx.2]
  | intersection a b iha ihb => rw [acceptsStatic, acceptsStatic, iha hx.1, ihb hx.2]
  | within f x ih =>
    rw [acceptsStatic, acceptsStatic, ih hx]
    rfl

theorem acceptsArgs_home (hx : x.Impartial) (hm : '+' ∉ m.declaring.toList) (args : List Value) :
    x.acceptsArgs m (some m.home) args = x.acceptsArgs m none args := by
  induction x with
  | any | names | tests | arguments => rfl
  | expression e => exact congrArg Except.ok (Expression.evaluate_home hx hm (some args))
  | custom x =>
    cases hargs : x.acceptsArgs with
    | none => simp [acceptsArgs, hargs]
    | some decide => simpa [acceptsArgs, hargs] using hx.acceptsArgs decide hargs m _ _ args
  | union a b iha ihb =>
    rw [acceptsArgs, acceptsArgs, accepts_home hx.1 hm, accepts_home hx.2 hm, iha hx.1, ihb hx.2]
  | intersection a b iha ihb => rw [acceptsArgs, acceptsArgs, iha hx.1, ihb hx.2]
  | within f x ih => exact ih hx

end MethodMatcher

/-- Closures of the user's in the matcher of the advisor do not look at the class. -/
def Advisor.Impartial (a : Advisor) : Prop :=
  ∀ p advice, a.role = .pointcut p advice → p.methodMatcher.Impartial

namespace Chain

variable {adapters : Adapters} {as : List Advisor} {c : Class} {r : Resolution} {e : Element}

theorem impartial_of_matched (has : ∀ a ∈ as, a.Impartial) {x : Match} (hx : x ∈ matched as m c)
    {q : MethodMatcher} (hq : x.2 = some q) : q.Impartial := by
  obtain ⟨a, condition⟩ := x
  obtain ⟨ha, hmatch⟩ := mem_matched.mp hx
  obtain rfl : condition = some q := hq
  unfold match? at hmatch
  split at hmatch
  next p advice hrole =>
    split at hmatch
    · have hp := has a ha p advice hrole
      split at hmatch <;> simp_all
    · simp at hmatch
  next => simp at hmatch

/-- An element that a chain has been resolved with is asked about the declaring type, whether a call comes
with it or without a class. -/
theorem admits_home (has : ∀ a ∈ as, a.Impartial) (hm : '+' ∉ m.declaring.toList)
    (hr : (resolve adapters as m none).1 = .ok r) (he : e ∈ r.chain) {i : Invocation}
    (hmethod : i.method = m) (hclass : i.targetClass = none) :
    e.admits i = e.admits { i with targetClass := some m.home } := by
  obtain ⟨x, hx, hcondition⟩ := exists_match_of_mem_resolve hr he
  cases hq : x.2 with
  | none => simp [Element.admits, hcondition, hq]
  | some q =>
    have hasked := q.acceptsArgs_home (impartial_of_matched has hx hq) hm i.arguments
    simp [Element.admits, hcondition, hq, hmethod, hclass, hasked]

end Chain

/-- A class that is not known is the declaring type: expressions and matchers decide on a method alone as they
do for the class of that name, whether it has introductions or not and for all arguments. So the elements of
a chain that was resolved for that class are asked about no other by calls without one. -/
theorem classless_as_home (hm : '+' ∉ m.declaring.toList) :
    (∀ e : Expression, e.Impartial → e.accepts m none = e.accepts m (some m.home) ∧
      ∀ args, e.acceptsArgs m none args = e.acceptsArgs m (some m.home) args) ∧
    (∀ x : MethodMatcher, x.Impartial → x.accepts m none = x.accepts m (some m.home) ∧
      (∀ introductions,
        x.acceptsStatic m none introductions = x.acceptsStatic m (some m.home) introductions) ∧
      ∀ args, x.acceptsArgs m none args = x.acceptsArgs m (some m.home) args) ∧
    ∀ (adapters : Adapters) (as : List Advisor) (r : Resolution), (∀ a ∈ as, a.Impartial) →
      (Chain.resolve adapters as m none).1 = .ok r →
      ∀ e ∈ r.chain, ∀ i : Invocation, i.method = m → i.targetClass = none →
        e.admits i = e.admits { i with targetClass := some (Chain.classOf m none) } := by
  refine ⟨fun e he => ?_, fun x hx => ?_, ?_⟩
  · exact ⟨(e.evaluate_home he hm none).symm, fun args => (e.evaluate_home he hm (some args)).symm⟩
  · exact ⟨(x.accepts_home hx hm).symm,
      fun introductions => (x.acceptsStatic_home hx hm introductions).symm,
      fun args => (x.acceptsArgs_home hx hm args).symm⟩
  · exact fun adapters as r has hr e he i hmethod hclass => Chain.admits_home has hm hr he hmethod hclass

/-- Calls of a service with arguments, and saving by its full name. -/
def servedOrSaved : MethodMatcher :=
  .union
    (.within (.root "UserService")
      (.arguments (.expression (.type ⟨"UserService+"⟩)) fun _ args => args ≠ []))
    (.tests ⟨[fun name => name = "UserService.save"], []⟩)

def servedOrSavedOnce : Advisor :=
  ⟨.pointcut ⟨.any, servedOrSaved⟩ (.around ⟨"once", Program.proceed⟩), none, none⟩

/-- A call on a proxy whose target class is not known. -/
def enrolment : Invocation where
  proxy := .unit
  target := some (.bean ⟨0, "users"⟩)
  targetClass := none
  method := ⟨"UserService", "enrol", ["User"]⟩
  arguments := [.int 7]

theorem enrolment_admitted :
    ∃ r, (Chain.resolve .builtIn [servedOrSavedOnce] enrolment.method none).1 = .ok r ∧
      ∃ e ∈ r.chain, e.admits enrolment = .ok true ∧
        e.admits { enrolment with targetClass := some (.named "UserService") } = .ok true := by
  have hpartial : ∀ a ∈ [servedOrSavedOnce], a.Impartial := by
    intro a ha p advice hrole
    obtain rfl := List.mem_singleton.mp ha
    cases hrole
    exact ⟨trivial, trivial⟩
  have hresolve : (Chain.resolve .builtIn [servedOrSavedOnce] enrolment.method none).1 =
      .ok ⟨[⟨⟨"once", Program.proceed⟩, some servedOrSaved⟩], false⟩ := by
    have hmatched : Chain.matched [servedOrSavedOnce] enrolment.method (Chain.classOf enrolment.method none) =
        [(servedOrSavedOnce, some servedOrSaved)] := rfl
    simp only [Chain.resolve, hmatched, Advisor.sortBy, topologicalSort_singleton]
    rfl
  have hadmitted : (⟨⟨"once", Program.proceed⟩, some servedOrSaved⟩ : Element).admits enrolment =
      .ok true := rfl
  refine ⟨_, hresolve, _, List.mem_singleton_self _, hadmitted, ?_⟩
  rw [← hadmitted]
  exact ((classless_as_home (by decide)).2.2 .builtIn [servedOrSavedOnce] _ hpartial hresolve _
    (List.mem_singleton_self _) enrolment rfl rfl).symm

end Weaving
