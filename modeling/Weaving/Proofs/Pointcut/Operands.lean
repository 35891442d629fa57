import Weaving.Proofs.Pointcut.Algebra

/-! Parts that decide twice. A matcher may accept a method in its aware decision that it does not accept
otherwise, and a runtime matcher decides again on the arguments. What is built from such a matcher does
not always come back to it. A union that is asked about arguments goes by what its sides accept
otherwise, so it drops what it took from the aware decision of a static side. And a test of arguments
replaces what the matcher it narrows says about them. -/
namespace Weaving

namespace MethodMatcher

variable {m : Method} {c : Option Class} {introductions : Bool} {args : List Value}
  {a b x : MethodMatcher}

/-- A method is accepted only because of what is known about introductions. -/
def ByIntroductions (x : MethodMatcher) (m : Method) (c : Option Class) (introductions : Bool) : Prop :=
  x.acceptsStatic m c introductions = true ∧ x.accepts m c = false

theorem Composed.not_byIntroductions (h : x.Composed) : ¬x.ByIntroductions m c introductions := by
  rintro ⟨hstatic, haccepts⟩
  rw [h.acceptsStatic_eq, haccepts] at hstatic
  contradiction

/-- The ways to unite two matchers for a class: by themselves, or in pointcuts whose filters accept it. -/
inductive Unites (a b : MethodMatcher) (m : Method) (c : Option Class) : MethodMatcher → Prop
  | before : Unites a b m c (union a b)
  | after : Unites a b m c (union b a)
  | pointcutBefore {f g : ClassFilter} (hf : f.accepts (classOf m c) = true)
      (hg : g.accepts (classOf m c) = true) :
      Unites a b m c ((⟨f, a⟩ : Pointcut).union ⟨g, b⟩).methodMatcher
  | pointcutAfter {f g : ClassFilter} (hf : f.accepts (classOf m c) = true)
      (hg : g.accepts (classOf m c) = true) :
      Unites a b m c ((⟨g, b⟩ : Pointcut).union ⟨f, a⟩).methodMatcher

theorem Unites.isRuntime_eq (h : Unites a b m c x) : x.isRuntime = (a.isRuntime || b.isRuntime) := by
  cases h with
  | before | pointcutBefore => rfl
  | after | pointcutAfter => exact Bool.or_comm _ _

theorem Unites.acceptsStatic_eq (h : Unites a b m c x) : x.acceptsStatic m c introductions =
    (a.acceptsStatic m c introductions || b.acceptsStatic m c introductions) := by
  cases h with
  | before => rfl
  | after => exact Bool.or_comm _ _
  | pointcutBefore hf hg => simp [Pointcut.union, acceptsStatic, hf, hg]
  | pointcutAfter hf hg => simp [Pointcut.union, acceptsStatic, hf, hg, Bool.or_comm]

/-- What a union asks each of its sides about arguments. -/
def acceptsAsSide (x : MethodMatcher) (m : Method) (c : Option Class) (args : List Value) :
    Except Abort Bool :=
  if x.accepts m c then if x.isRuntime then x.acceptsArgs m c args else .ok true else .ok false

theorem acceptsArgs_union_eq (a b : MethodMatcher) (m : Method) (c : Option Class) (args : List Value) :
    (union a b).acceptsArgs m c args = (do
      if ← a.acceptsAsSide m c args then return true
      b.acceptsAsSide m c args) := by
  simp only [acceptsArgs, acceptsAsSide]
  cases a.accepts m c <;> cases a.isRuntime <;> rfl

theorem acceptsAsSide_eq_false_iff : x.acceptsAsSide m c args = .ok false ↔
    (x.accepts m c = true → x.isRuntime = true ∧ x.acceptsArgs m c args = .ok false) := by
  cases haccepts : x.accepts m c <;> cases hr : x.isRuntime <;> simp [acceptsAsSide, haccepts, hr]

theorem acceptsAsSide_within {f : ClassFilter} (hf : f.accepts (classOf m c) = true) :
    (within f x).acceptsAsSide m c args = x.acceptsAsSide m c args := by
  have haccepts : (within f x).accepts m c = x.accepts m c := by simp [accepts, hf]
  rw [acceptsAsSide, haccepts]
  rfl

/-- When it comes to arguments, the filters of pointcuts make no difference any more. -/
theorem Unites.acceptsArgs_eq (h : Unites a b m c x) (args : List Value) :
    x.acceptsArgs m c args = (union a b).acceptsArgs m c args ∨
      x.acceptsArgs m c args = (union b a).acceptsArgs m c args := by
  cases h with
  | before => exact .inl rfl
  | after => exact .inr rfl
  | pointcutBefore hf hg =>
    left
    simp only [Pointcut.union, acceptsArgs_union_eq, acceptsAsSide_within hf, acceptsAsSide_within hg]
  | pointcutAfter hf hg =>
    right
    simp only [Pointcut.union, acceptsArgs_union_eq, acceptsAsSide_within hf, acceptsAsSide_within hg]

/-- A union rejects arguments if both sides do. -/
theorem acceptsArgs_union_eq_false_iff : (union a b).acceptsArgs m c args = .ok false ↔
    a.acceptsAsSide m c args = .ok false ∧ b.acceptsAsSide m c args = .ok false := by
  rw [acceptsArgs_union_eq]
  cases a.acceptsAsSide m c args with
  | error e =>
    simp only [reduceCtorEq, false_and, iff_false]
    rintro ⟨⟩
  | ok u =>
    cases u with
    | false => simp only [true_and]; rfl
    | true =>
      simp only [reduceCtorEq, Except.ok.injEq, false_and, iff_false]
      rintro ⟨⟩

/-- A union with a runtime matcher does not forget what its static side selected, whichever comes first and also
in pointcuts, unless that side selected it only by its aware decision. Such a call is left to the arguments:
the union rejects them if the runtime side does not accept the method, or rejects them. -/
theorem union_keeps_iff (static : a.isRuntime = false) (runtime : b.isRuntime = true)
    (selected : a.acceptsStatic m c introductions = true) (united : Unites a b m c x)
    (args : List Value) :
    x.isRuntime = true ∧ x.acceptsStatic m c introductions = true ∧
    (∀ v, b.acceptsArgs m c args = .ok v →
      x.acceptsArgs m c args = .ok (a.accepts m c || b.accepts m c && v)) ∧
    (x.acceptsArgs m c args = .ok false ↔ a.ByIntroductions m c introductions ∧
      (b.accepts m c = true → b.acceptsArgs m c args = .ok false)) ∧
    (a.Composed → ¬a.ByIntroductions m c introductions) := by
  refine ⟨by rw [united.isRuntime_eq, runtime, Bool.or_true],
    by rw [united.acceptsStatic_eq, selected, Bool.true_or], ?_, ?_, Composed.not_byIntroductions⟩
  · intro v hv
    have ha : a.isRuntime = true → a.acceptsArgs m c args = .ok true := by simp [static]
    obtain h | h := united.acceptsArgs_eq args
    · rw [h, acceptsArgs_union ha fun _ => hv]
      simp [static, runtime]
    · rw [h, acceptsArgs_union (fun _ => hv) ha, Bool.or_comm]
      simp [static, runtime]
  · have hsides : x.acceptsArgs m c args = .ok false ↔
        a.acceptsAsSide m c args = .ok false ∧ b.acceptsAsSide m c args = .ok false := by
      obtain h | h := united.acceptsArgs_eq args
      · rw [h, acceptsArgs_union_eq_false_iff]
      · rw [h, acceptsArgs_union_eq_false_iff, and_comm]
    rw [hsides, acceptsAsSide_eq_false_iff, acceptsAsSide_eq_false_iff]
    simp [ByIntroductions, static, runtime, selected]

/-- The first argument is a number above zero. -/
def positive (_ : Method) (args : List Value) : Bool :=
  match args with
  | .int i :: _ => decide (0 < i)
  | _ => false

def deposit : Method := ⟨"Account", "deposit", ["i64"]⟩

/-- Deposits into introduced accounts, whatever the amount. -/
def introducedDeposits : MethodMatcher := (names ["deposit"]).whenIntroduced

def positiveDeposits : MethodMatcher := arguments (names ["deposit"]) positive

/-- Both as pointcuts for all classes, united. -/
def watchedDeposits : MethodMatcher :=
  ((⟨.any, introducedDeposits⟩ : Pointcut).union ⟨.any, positiveDeposits⟩).methodMatcher

theorem introducedDeposits_kept_if_positive :
    introducedDeposits.isRuntime = false ∧ positiveDeposits.isRuntime = true ∧
      introducedDeposits.acceptsStatic deposit (some (.named "Savings")) true = true ∧
      watchedDeposits.acceptsArgs deposit (some (.named "Savings")) [.int 5] = .ok true := by
  have hselected : introducedDeposits.acceptsStatic deposit (some (.named "Savings")) true = true := by
    decide +kernel
  have hunited : Unites introducedDeposits positiveDeposits deposit (some (.named "Savings"))
      watchedDeposits := .pointcutBefore rfl rfl
  obtain ⟨-, -, hanswer, -⟩ := union_keeps_iff rfl rfl hselected hunited [.int 5]
  exact ⟨rfl, rfl, hselected, hanswer true rfl⟩

/-- A deposit that the aware matcher selects for any amount is dropped where the amount is not positive. -/
theorem introducedDeposits_dropped :
    introducedDeposits.isAware = true ∧ introducedDeposits.isRuntime = false ∧
      positiveDeposits.isRuntime = true ∧
      introducedDeposits.acceptsStatic deposit (some (.named "Savings")) true = true ∧
      ∀ x ∈ [union introducedDeposits positiveDeposits, union positiveDeposits introducedDeposits,
          watchedDeposits],
        x.acceptsStatic deposit (some (.named "Savings")) true = true ∧
        x.acceptsArgs deposit (some (.named "Savings")) [.int (-5)] = .ok false := by
  refine ⟨rfl, rfl, rfl, by decide +kernel, ?_⟩
  intro x hx
  simp only [List.mem_cons, List.not_mem_nil, or_false] at hx
  obtain rfl | rfl | rfl := hx <;> exact ⟨by decide +kernel, rfl⟩

/-- Advice with a matcher runs in a call: the matcher accepts the method on the class of the chain, and the
arguments if it looks at them. -/
def RunsIn (x : MethodMatcher) (introductions : Bool) (i : Invocation) : Prop :=
  x.acceptsStatic i.method (some (classOf i.method i.targetClass)) introductions = true ∧
    (x.isRuntime = true → x.acceptsArgs i.method i.targetClass i.arguments = .ok true)

/-- The matcher accepts the method, but by itself it keeps advice from the call: by its aware decision, or by
the arguments. -/
def Withholds (x : MethodMatcher) (introductions : Bool) (i : Invocation) : Prop :=
  x.accepts i.method (some (classOf i.method i.targetClass)) = true ∧ ¬x.RunsIn introductions i

variable {i : Invocation} {test : Method → List Value → Bool}

/-- A test of arguments goes by what the matcher accepts before there are any. -/
theorem runsIn_arguments_iff : (arguments x test).RunsIn introductions i ↔
    x.accepts i.method (some (classOf i.method i.targetClass)) = true ∧
      test i.method i.arguments = true := by
  simp [RunsIn, acceptsStatic, accepts, isRuntime, acceptsArgs]

theorem Composed.withholds_iff (h : x.Composed) : x.Withholds introductions i ↔
    x.accepts i.method (some (classOf i.method i.targetClass)) = true ∧ x.isRuntime = true ∧
      x.acceptsArgs i.method i.targetClass i.arguments = .ok false := by
  obtain ⟨u, hu⟩ := h.answers.acceptsArgs_ok i.method i.targetClass i.arguments
  rw [Withholds, RunsIn, h.acceptsStatic_eq]
  cases hr : x.isRuntime with
  | false => simp
  | true => cases u <;> simp +contextual [hu hr]

/-- An intersection asks those of its sides about arguments that look at them. -/
theorem acceptsArgs_intersection_eq_true_iff : (intersection a b).acceptsArgs m c args = .ok true ↔
    (a.isRuntime = true → a.acceptsArgs m c args = .ok true) ∧
      (b.isRuntime = true → b.acceptsArgs m c args = .ok true) := by
  cases hra : a.isRuntime <;> cases hrb : b.isRuntime <;> cases ha : a.acceptsArgs m c args <;>
    cases hb : b.acceptsArgs m c args <;>
    simp [acceptsArgs, hra, hrb, ha, hb, Bind.bind, Except.bind, Pure.pure, Except.pure]

theorem runsIn_intersection_iff : (intersection a b).RunsIn introductions i ↔
    a.RunsIn introductions i ∧ b.RunsIn introductions i := by
  simp only [RunsIn, acceptsArgs_intersection_eq_true_iff, acceptsStatic, isRuntime, Bool.and_eq_true,
    Bool.or_eq_true]
  tauto

/-- A test of arguments does not only narrow a matcher: it lets through what the matcher by itself withholds after
it has accepted the method. Of composed matchers this is what a runtime matcher rejects by the arguments. What
narrows every matcher is its intersection with the test. -/
theorem arguments_narrow_iff (x : MethodMatcher) (test : Method → List Value → Bool)
    (introductions : Bool) (i : Invocation) :
    ((arguments x test).RunsIn introductions i ↔
      x.accepts i.method (some (classOf i.method i.targetClass)) = true ∧
        test i.method i.arguments = true) ∧
    (((arguments x test).RunsIn introductions i →
        x.RunsIn introductions i ∧ test i.method i.arguments = true) ↔
      ¬(x.Withholds introductions i ∧ test i.method i.arguments = true)) ∧
    (x.Composed → (x.Withholds introductions i ↔
      x.accepts i.method (some (classOf i.method i.targetClass)) = true ∧ x.isRuntime = true ∧
        x.acceptsArgs i.method i.targetClass i.arguments = .ok false)) ∧
    ((intersection x (arguments any test)).RunsIn introductions i ↔
      x.RunsIn introductions i ∧ test i.method i.arguments = true) := by
  refine ⟨runsIn_arguments_iff, ?_, Composed.withholds_iff, ?_⟩
  · rw [runsIn_arguments_iff, Withholds]
    tauto
  · rw [runsIn_intersection_iff, runsIn_arguments_iff]
    simp [accepts]

def positiveTransfers : MethodMatcher := arguments (names ["transfer"]) positive

/-- A transfer of less than nothing. -/
def withdrawal : Invocation where
  proxy := .unit
  target := none
  targetClass := some (.named "Bank")
  method := ⟨"Bank", "transfer", ["i64", "String"]⟩
  arguments := [.int (-5), .text "alice"]

/-- A second test lets a call through that the first one rejects. -/
theorem positiveTransfers_widened :
    (arguments positiveTransfers fun _ args => args.length = 2).RunsIn false withdrawal ∧
      ¬positiveTransfers.RunsIn false withdrawal := by
  constructor
  · exact ⟨by decide +kernel, fun _ => rfl⟩
  · rintro ⟨-, hargs⟩
    have hpositive : positive withdrawal.method withdrawal.arguments = true :=
      Except.ok.inj (hargs rfl)
    contradiction

end MethodMatcher
end Weaving
