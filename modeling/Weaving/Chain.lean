import Weaving.Advisor.Adapter
import Weaving.Advisor.Eligibility
import Weaving.Invocation.Proceed
import Weaving.Advisor.Precedence

/-! Chains: the interceptors for one method of one class, in order of precedence. An advisor takes part
if its pointcut accepts the method; if its matcher also looks at arguments, its interceptors carry the
matcher with them, and the chain is not fit to be kept. -/
namespace Weaving

abbrev Chain := List Element

namespace Chain

def shown (c : Chain) : List String := c.map Element.shown

end Chain

structure Resolution where
  chain : Chain
  /-- Whether the chain is the same for all arguments. -/
  cacheable : Bool

/-- An advisor that takes part, with the matcher to ask about each call's arguments, if any. -/
abbrev Match := Advisor × Option MethodMatcher

namespace Chain

/-- Whether and how an advisor takes part in the chain of a method. -/
def match? (m : Method) (c : Class) (introductions : Bool) (a : Advisor) : Option Match :=
  match a.role with
  | .pointcut p _ =>
    if p.classFilter.accepts c && p.methodMatcher.acceptsStatic m (some c) introductions then
      some (a, if p.methodMatcher.isRuntime then some p.methodMatcher else none)
    else none
  | .introduction i =>
    if i.interfaces.contains m.declaring && i.classFilter.accepts c then some (a, none) else none

/-- The advisors that take part in the chain of a method, in input order. -/
def matched (as : List Advisor) (m : Method) (c : Class) : List Match :=
  as.filterMap (match? m c (Advisor.introduces as c))

/-- The chain elements of an advisor that takes part. -/
def elements (adapters : Adapters) (x : Match) : Except Fault Chain := do
  return (← adapters.interceptors x.1).map fun i => ⟨i, x.2⟩

/-- The class that a chain is resolved for: the target class, or the declaring type if it is unknown. -/
def classOf (m : Method) (c : Option Class) : Class := c.getD (.named m.declaring)

/-- The chain for a method, and what its sorting logs. -/
def resolve (adapters : Adapters) (as : List Advisor) (m : Method) (c : Option Class) :
    Except Fault Resolution × List Entry :=
  match matched as m (classOf m c) with
  | [] => (.ok ⟨[], true⟩, [])
  | found =>
    let sorted := Advisor.sortBy Prod.fst found
    ((sorted.items.mapM (elements adapters)).map fun parts =>
        ⟨parts.flatten, found.all fun x => x.2.isNone⟩, sorted.warnings)

end Chain
end Weaving
