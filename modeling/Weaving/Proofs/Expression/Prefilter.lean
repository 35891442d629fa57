import Weaving.Proofs.Expression.Approximation
import Weaving.Proofs.Expression.TypePattern

/-! The class filter of an expression. As a class filter an expression is asked about a class alone, by rules of
its own: the declaring type of a method does not count there. Still it accepts every class that has a
method which the expression accepts, so that an expression that is filter and matcher in one applies to
just the calls that it accepts. -/
namespace Weaving

namespace TypePattern

/-- A wildcard without a plus at its end, or the name of a type with one plus. -/
inductive Regular : TypePattern → Prop
  | plain {p : TypePattern} (h : p.Plain) : Regular p
  | subtypes {p : TypePattern} (h : p.Plain) (named : '*' ∉ p.text.toList) : Regular p.plus

/-- What a pattern accepts by the declaring type of a method it accepts by the class as well, if the class
provides that type. -/
theorem Regular.acceptsClass {p : TypePattern} {c : Class} {m : Method} (hp : p.Regular)
    (hprovides : c.provides m.declaring = true) (h : p.acceptsMethod m (some c) = true) :
    p.acceptsClass c = true := by
  cases hp with
  | plain hp =>
    rw [hp.acceptsMethod] at h
    obtain hdeclaring | hclass := Bool.or_eq_true_iff.mp h
    · exact hp.acceptsClass_iff.mpr ⟨m.declaring, hprovides, hdeclaring⟩
    · exact hclass
  | subtypes hp named =>
    rw [acceptsMethod_plus, hp.bare] at h
    rw [acceptsClass_plus]
    obtain hdeclaring | hclass := Bool.or_eq_true_iff.mp h
    · rwa [(Glob.accepts_iff_eq named).mp hdeclaring]
    · exact hclass

end TypePattern

namespace Expression

/-- The type patterns in an expression. -/
def typePatterns : Expression → List TypePattern
  | type p | execution p _ _ => [p]
  | and a b | or a b => a.typePatterns ++ b.typePatterns
  | not a => a.typePatterns
  | _ => []

variable {e : Expression} {m : Method} {c : Class}

theorem couldAccept_of_evaluate (he : ∀ p ∈ e.typePatterns, p.Regular)
    (hprovides : c.provides m.declaring = true) {arguments : Option (List Value)}
    (h : e.evaluate m (some c) arguments = true) : e.couldAccept c = true := by
  induction e with
  | type p => exact (he p (by simp [typePatterns])).acceptsClass hprovides h
  | execution p name params =>
    obtain ⟨htype, -⟩ := Bool.and_eq_true_iff.mp (Bool.and_eq_true_iff.mp h).1
    exact (he p (by simp [typePatterns])).acceptsClass hprovides htype
  | typeTest test => exact h
  | and a b iha ihb =>
    obtain ⟨ha, hb⟩ := Bool.and_eq_true_iff.mp h
    have hac := iha (fun p hp => he p (List.mem_append_left _ hp)) ha
    have hbc := ihb (fun p hp => he p (List.mem_append_right _ hp)) hb
    exact Bool.and_eq_true_iff.mpr ⟨hac, hbc⟩
  | or a b iha ihb =>
    obtain ha | hb := Bool.or_eq_true_iff.mp h
    · have hac := iha (fun p hp => he p (List.mem_append_left _ hp)) ha
      exact Bool.or_eq_true_iff.mpr (.inl hac)
    · have hbc := ihb (fun p hp => he p (List.mem_append_right _ hp)) hb
      exact Bool.or_eq_true_iff.mpr (.inr hbc)
  | _ => rfl

/-- As a class filter an expression leaves out no class with a method that it accepts, before there are
arguments or with any. So as a pointcut it applies to just the calls that it accepts. -/
theorem prefilter_sound (he : ∀ p ∈ e.typePatterns, p.Regular)
    (hprovides : c.provides m.declaring = true) :
    (e.accepts m (some c) = true → e.couldAccept c = true) ∧
    (∀ args, e.acceptsArgs m (some c) args = true → e.couldAccept c = true) ∧
    ∀ introductions args, (Pointcut.ofExpression e).Applies m c introductions args ↔
      e.acceptsArgs m (some c) args = true := by
  refine ⟨couldAccept_of_evaluate he hprovides, fun args => couldAccept_of_evaluate he hprovides, ?_⟩
  intro introductions args
  constructor
  · rintro ⟨-, hstatic, hargs⟩
    cases hr : e.isRuntime with
    | true => exact Except.ok.inj (hargs hr)
    | false => exact (evaluate_of_static hr _).trans hstatic
  · intro h
    have hfilter : e.couldAccept c = true := couldAccept_of_evaluate he hprovides h
    exact ⟨hfilter, accepts_of_evaluate h, fun _ => congrArg Except.ok h⟩

/-- Whatever has a life cycle, but for calls with two arguments. -/
def starting : Expression :=
  and (or (execution (.plus ⟨"Lifecycle"⟩) "start" (some [".."])) (type ⟨"Life*"⟩))
    (not (args fun vs => vs.length = 2))

/-- A class whose superclass declares the interface. -/
def worker : Class := .extending ⟨"Worker", [], [], false, false, false⟩
  ⟨⟨"Service", ["Lifecycle"], [], false, false, false⟩, []⟩

theorem starting_applies :
    (∀ p ∈ starting.typePatterns, p.Regular) ∧ worker.provides "Lifecycle" = true ∧
      (Pointcut.ofExpression starting).Applies ⟨"Lifecycle", "start", ["u64"]⟩ worker false [.unit] := by
  have hregular : ∀ p ∈ starting.typePatterns, p.Regular := by
    intro p hp
    obtain rfl | rfl : p = .plus ⟨"Lifecycle"⟩ ∨ p = ⟨"Life*"⟩ := by simpa [starting, typePatterns] using hp
    · exact .subtypes (by decide) (by decide)
    · exact .plain (by decide)
  have hprovides : worker.provides "Lifecycle" = true := by decide
  exact ⟨hregular, hprovides,
    ((prefilter_sound (m := ⟨"Lifecycle", "start", ["u64"]⟩) hregular hprovides).2.2 false [.unit]).mpr
      (by decide +kernel)⟩

end Expression
end Weaving
