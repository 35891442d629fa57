import Weaving.Advisor

/-! Adapters turn advice into interceptors. A registry is a list of adapters; around advice needs none,
and advice that several adapters support becomes several interceptors. -/
namespace Weaving

structure Adapter where
  supports : Advice → Bool
  adapt : Advice → Except Fault Interceptor

namespace Adapter

def before : Adapter where
  supports
    | .before _ => true
    | _ => false
  adapt
    | .before body => .ok (.before body)
    | other => .error (.unknownAdviceType other.describe)

def afterReturning : Adapter where
  supports
    | .afterReturning _ => true
    | _ => false
  adapt
    | .afterReturning body => .ok (.afterReturning body)
    | other => .error (.unknownAdviceType other.describe)

def throws : Adapter where
  supports
    | .throws _ => true
    | _ => false
  adapt
    | .throws t => .ok (.throws t)
    | other => .error (.unknownAdviceType other.describe)

end Adapter

abbrev Adapters := List Adapter

namespace Adapters

/-- The adapters that are always there. -/
def builtIn : Adapters := [.before, .afterReturning, .throws]

def supports (as : Adapters) (a : Advice) : Bool :=
  match a with
  | .around _ => true
  | a => as.any fun x => x.supports a

/-- Advice that some adapter supports becomes an advisor for every method. -/
def wrap (as : Adapters) (a : Advice) : Except Fault Advisor :=
  if as.supports a then .ok (.always a) else .error (.unknownAdviceType a.describe)

/-- The interceptors of advice: its own if it is around advice, then one from each adapter that
supports it. There must be at least one. -/
def interceptorsOf (as : Adapters) (a : Advice) : Except Fault (List Interceptor) := do
  let own := match a with
    | .around i => [i]
    | _ => []
  let adapted ← (as.filter fun x => x.supports a).mapM fun x => x.adapt a
  match own ++ adapted with
  | [] => throw (.unknownAdviceType a.describe)
  | is => return is

def interceptors (as : Adapters) (a : Advisor) : Except Fault (List Interceptor) :=
  match a.role with
  | .introduction i => .ok [i.interceptor.interceptor]
  | .pointcut _ advice => as.interceptorsOf advice

end Adapters

/-- What can be handed over where an advisor is wanted. -/
inductive Advisable
  | advisor (a : Advisor)
  | advice (a : Advice)

namespace Advisable

def toAdvisor (as : Adapters) : Advisable → Except Fault Advisor
  | advisor a => .ok a
  | advice a => as.wrap a

def shown : Advisable → String
  | advisor a => "Advisor(" ++ a.shown ++ ")"
  | advice a => "Advice(" ++ a.shown ++ ")"

end Advisable
end Weaving
