import Weaving.Advice
import Weaving.Advisor.Introduction
import Weaving.Pointcut

/-! Advisors: advice with the pointcut it applies to, or an interceptor that introduces interfaces to the
classes of a filter, each with an order and, if an aspect declares it, its place there. -/
namespace Weaving

/-- The place of an advisor in an aspect. -/
structure Placement where
  aspect : String
  declaration : Nat
  kind : AdviceKind
  deriving DecidableEq, Repr

inductive Advisor.Role
  | pointcut (p : Pointcut) (a : Advice)
  | introduction (i : Introduction)

structure Advisor where
  role : Advisor.Role
  order : Option Int := none
  placement : Option Placement := none

namespace Advisor

/-- Advice for every method. -/
def always (a : Advice) : Advisor := ⟨.pointcut .any a, none, none⟩

def introduction? (a : Advisor) : Option Introduction :=
  match a.role with
  | .introduction i => some i
  | .pointcut _ _ => none

def isIntroduction (a : Advisor) : Bool := a.introduction?.isSome

/-- The order of an advisor that has none, behind all others. -/
def lowestPrecedence : Int := 2147483647

def rank (a : Advisor) : Int := a.order.getD lowestPrecedence

def kind (a : Advisor) : AdviceKind :=
  match a.placement with
  | some p => p.kind
  | none => match a.role with
    | .pointcut _ advice => advice.kind
    | .introduction _ => .around

def describe (a : Advisor) : String :=
  let body := match a.role with
    | .pointcut _ advice => advice.describe
    | .introduction i => "introduction of " ++ Text.list i.interfaces
  match a.placement with
  | some p => p.aspect ++ "#" ++ toString p.declaration ++ " " ++ body
  | none => body

def shownOrder (order : Option Int) : String := Text.option (order.map toString)

def shown (a : Advisor) : String :=
  Text.record "Advisor" [("advice", Text.quote a.describe), ("order", shownOrder a.order)]

end Advisor
end Weaving
