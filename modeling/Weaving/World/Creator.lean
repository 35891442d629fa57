import Weaving.World.Call

/-! Automatic proxies. A bean for which advisors are eligible is wrapped in a proxy that follows the feed
the advisors come from; any other bean stays as it is. -/
namespace Weaving

/-- What generating a proxy gives: a handle, or a value that is none. -/
inductive Generated
  | handle
  | value (v : Value)

/-- What becomes of a bean. -/
inductive Processed
  | raw (t : Target)
  | proxied (v : Value)
  deriving DecidableEq, Repr

namespace Processed

def isProxied : Processed → Bool
  | raw _ => false
  | proxied _ => true

/-- The handle of a proxied bean, if its proxy is a handle. -/
def handle? : Processed → Option ObjectRef
  | proxied (.object (.handle o)) => some o
  | _ => none

/-- The bean or its handle, whichever is to be called. -/
def target? : Processed → Option Target
  | raw t => some t
  | p => p.handle?.map .handle

def shown : Processed → String
  | raw _ => "ProcessedBean::Raw"
  | proxied v => "ProcessedBean::Proxied(" ++ v.shown ++ ")"

end Processed

structure Creator where
  feed : Feed
  enabled : Bool := true
  config : ProxySettings := {}
  adapters : Adapters := .builtIn
  generate : Plan → Except Fault Generated := fun _ => .ok .handle

namespace Creator

/-- Configures the proxy of a bean, by its interfaces unless its class is to be extended and by its
advisors, and plans it. The configuration is frozen, if it is to be, only after the advisors are in. -/
def configure (c : Creator) (beanClass : Class) (as : List Advisor) : Edit Plan := do
  unless c.config.proxyTargetClass do
    Advised.modify fun d => d.addInterfaces beanClass.allInterfaces
  Advised.addAdvisors as
  Advised.modify fun d => d.freeze c.config.frozen
  match Plan.choose (← get).advised (some beanClass) with
  | .ok plan => return plan
  | .error f => throw f

/-- The value that stands for a proxy: a new handle, unless something else was generated. -/
def realize (h : Handle) (name : String) : Generated → Deed Value
  | .value v => return v
  | .handle => do
    let (o, w) := (← Deed.world).addHandle h name
    Deed.modifyWorld fun _ => w
    return .object (.handle o)

/-- Makes a proxy for a bean, with advisors that were eligible at a version of the feed. -/
def makeProxy (c : Creator) (bean : Target) (name : String) (beanClass : Class) (version : Nat)
    (as : List Advisor) : Deed (Except Fault Processed) := do
  let (source, w) := (← Deed.world).addSource (.singleton bean (some beanClass))
  let advised : Advised := { config := { c.config with frozen := false }, adapters := c.adapters }
  let (configuration, w) := w.addConfiguration { advised, source }
  Deed.modifyWorld fun _ => w
  match ← Deed.edit configuration (c.configure beanClass as) with
  | .error f => return .error f
  | .ok plan => match c.generate plan with
    | .error f => return .error f
    | .ok generated =>
      let following : Following := ⟨c.feed, name, beanClass, version⟩
      let v ← realize ⟨plan, configuration, some following⟩ name generated
      Deed.journal [.info ("Created AOP proxy for bean '" ++ name ++ "' with " ++
        toString as.length ++ " advisor(s)")]
      return .ok (.proxied v)

/-- Wraps a bean in a proxy if advisors are eligible for it. -/
def wrap (c : Creator) (bean : Target) (name : String) (beanClass : Class) :
    Deed (Except Fault Processed) := do
  if !c.enabled || beanClass.isProxy then return .ok (.raw bean)
  else
    let w ← Deed.world
    let sorted := w.eligible c.feed name beanClass
    Deed.journal sorted.warnings
    if sorted.items.isEmpty then return .ok (.raw bean)
    else c.makeProxy bean name beanClass (w.version c.feed) sorted.items

end Creator
end Weaving
