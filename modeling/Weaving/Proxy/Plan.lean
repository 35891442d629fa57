import Weaving.Proxy.Advised

/-! Plans of proxies: whether a proxy implements interfaces or extends the target class, and which
interfaces it exposes. -/
namespace Weaving

/-- The interface through which a proxy shows its configuration. -/
def advisedInterface : String := "chimera_aop::Advised"

structure Plan where
  superclass : Option Class
  interfaces : List String
  deriving DecidableEq, Repr

namespace Plan

def isSubclass (p : Plan) : Bool := p.superclass.isSome

/-- Whether a method can be called through the proxy. -/
def exposes (p : Plan) (m : Method) : Bool :=
  p.interfaces.contains m.declaring || p.superclass.any fun c => c.provides m.declaring

def describe (p : Plan) : String :=
  (match p.superclass with
    | none => "interface proxy "
    | some c => "subclass proxy of " ++ c.name ++ " ") ++ Text.list p.interfaces

/-- Whether users of the proxy can reach its configuration. -/
def isManaged (p : Plan) : Bool := p.interfaces.contains advisedInterface

/-- The written form of a handle with this plan. -/
def shownHandle (p : Plan) : String := Text.record "ProxyHandle" [("plan", Text.quote p.describe)]

/-- Extends a class, unless it is final. Of an interface or a proxy the interfaces are taken instead. -/
def extending (c : Class) (interfaces : List String) : Except Fault Plan :=
  if c.isInterface then .ok ⟨none, addOnce interfaces c.name⟩
  else if c.isProxy then .ok ⟨none, addAll interfaces c.allInterfaces⟩
  else if c.isFinal then .error (.proxyCreation ("cannot subclass final class " ++ c.name))
  else .ok ⟨some c, interfaces⟩

/-- Each interface must be one of the class or be introduced by some advisor. -/
def checkBacked (c : Class) (as : List Advisor) : List String → Except Fault Unit
  | [] => .ok ()
  | i :: is =>
    if (as.any fun a => (Advised.introduced a).contains i) || c.provides i then
      checkBacked c as is
    else .error (.proxyCreation
      (c.name ++ " does not implement " ++ i ++ " and no introduction provides it"))

/-- Adds the interface that shows the configuration, unless it is to be hidden. A plan without a
superclass needs an interface before that. -/
def complete (config : ProxySettings) (p : Plan) : Except Fault Plan :=
  if p.superclass.isNone && p.interfaces.isEmpty then
    .error (.proxyCreation "interface proxy requires at least one interface")
  else .ok { p with interfaces :=
    if config.concealed then p.interfaces else addOnce p.interfaces advisedInterface }

/-- The plan for a configuration and a target class. -/
def choose (a : Advised) (c : Option Class) : Except Fault Plan := do
  let plan ←
    if a.config.optimize || a.config.proxyTargetClass || a.interfaces.isEmpty then
      match c with
      | none => throw (.proxyCreation ("target source cannot determine target class: " ++
          "an interface or a target class is required"))
      | some c => extending c a.interfaces
    else
      match c with
      | none => pure ⟨none, a.interfaces⟩
      | some c =>
        checkBacked c a.advisors a.interfaces
        pure ⟨none, a.interfaces⟩
  complete a.config plan

end Plan
end Weaving
