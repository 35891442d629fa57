import Weaving.World

/-! Calls in the world. A call on a handle takes the target from the source, lets an invocation proceed
along the chain for the method and gives the target back however that ends; if it returns the target,
the proxy stands in for it. Handles that follow an advisor feed look for changes first. -/
namespace Weaving

namespace Deed

/-- Acquires a target from a source. -/
def acquire (n : Nat) : Deed (Outcome (Option Target)) := do
  let r := ((← world).source n).acquire
  modifyWorld (·.setSource n r.2)
  journal r.1.1
  return r.1.2

/-- Gives a target back to its source, if there is one. -/
def dispose (n : Nat) (target : Option Target) : Deed Unit := do
  match target with
  | none => pure ()
  | some t =>
    let r := ((← world).source n).dispose t
    modifyWorld (·.setSource n r.2)
    journal r.1

/-- Makes an edit of a configuration. What it changed before it failed stays changed. -/
def edit {α : Type} (n : Nat) (e : Edit α) : Deed (Except Fault α) := do
  let w ← world
  match w.configurations[n]? with
  | none => return .error (.config "no such configuration")
  | some c =>
    let save (s : Editing) : Deed Unit := do
      modifyWorld fun w =>
        { w with
          configurations := w.configurations.set n { c with advised := s.advised }
          asked := s.asked }
      journal s.journal
    match e ⟨c.advised, w.asked, []⟩ with
    | .ok a s =>
      save s
      return .ok a
    | .error f s =>
      save s
      return .error f

/-- Makes an introduction whose interceptor is given its serial number, and validates it. -/
def introduce (interfaces : List String) (make : Nat → Introducer) :
    Deed (Except Fault Introduction) := do
  let w ← world
  let i : Introduction := ⟨.any, interfaces, make w.introductions⟩
  let (result, asked) := match i.validate w.asked with
    | .ok () asked => (.ok i, asked)
    | .error f asked => (.error f, asked)
  modifyWorld fun w => { w with introductions := w.introductions + 1, asked }
  return result

/-- Lets something play around an invocation in the world. -/
def play {α : Type} (i : Invocation) (p : Play World α) : Deed (α × Invocation) := fun s =>
  match p ⟨i, s.world, s.journal⟩ with
  | .ok a t => .ok (a, t.invocation) ⟨t.world, t.journal⟩
  | .error e t => .error e ⟨t.world, t.journal⟩

def obey (host : Host World) (c : Command) : Deed (Outcome Value) := fun s =>
  let r := host.obey c s.world
  let s := ⟨r.world, s.journal ++ r.entries⟩
  match r.result with
  | .ok o => .ok o s
  | .error e => .error e s

/-- What a deed comes to when nothing has been journalled before. -/
def reaction {α : Type} (d : Deed α) (w : World) : Reaction World α :=
  match d ⟨w, []⟩ with
  | .ok a s => ⟨.ok a, s.world, s.journal⟩
  | .error e s => ⟨.error e, s.world, s.journal⟩

/-- A bean answers a call. -/
def callBean (o : ObjectRef) (m : Method) (args : List Value) : Deed (Outcome Value) := do
  let w ← world
  match w.beans[o.serial]? with
  | none => return .error (.ofFault (.noTarget m.text))
  | some bean =>
    let answer := bean (.bean o) (w.called o) m args
    modifyWorld fun w =>
      { w with
        called := fun p => if p = o then m :: w.called p else w.called p
        clock := w.clock + answer.pause }
    journal answer.entries
    return answer.outcome

/-- Takes over the advisors that are eligible now, if the feed has changed since the last look. A
frozen configuration stays as it is, and so does one that refuses them. -/
def refresh (handle : Nat) : Deed Unit := do
  let w ← world
  match w.handles[handle]? with
  | none => pure ()
  | some h => match h.following with
    | none => pure ()
    | some f =>
      let version := w.version f.feed
      if version ≠ f.seen then
        if !(w.configurations[h.configuration]?.any fun c => c.advised.config.frozen) then
          let sorted := w.eligible f.feed f.bean f.beanClass
          journal sorted.warnings
          match ← edit h.configuration (Advised.replaceAdvisors sorted.items) with
          | .ok () => pure ()
          | .error e => journal [.warn ("Failed to refresh advisors for bean '" ++ f.bean ++ "': " ++
              e.message)]
        let followed := { h with following := some { f with seen := version } }
        modifyWorld fun w => { w with handles := w.handles.set handle followed }

/-- Calls a method along a chain, or directly if the chain is empty. -/
def callAlong (host : Host World) (chain : Chain) (i : Invocation) : Deed (Outcome Value) := do
  match chain, i.target with
  | [], some t => obey host (.call t i.method i.arguments)
  | [], none => return .error (.ofFault (.noTarget i.method.text))
  | chain, _ => return (← play i (Invocation.proceed host chain)).1

/-- Calls a method with a target that has been acquired, along the chain that a resolver gives for it. -/
def intercept (host : Host World) (n : Nat) (resolver : Resolver) (source : Source)
    (target : Option Target) (proxy : Value) (m : Method) (args : List Value) : Deed (Outcome Value) := do
  match ← edit n (Advised.chainBy resolver source.isStatic m source.targetClass) with
  | .error f => return .error (.ofFault f)
  | .ok chain =>
    let outcome ← callAlong host chain
      { proxy, target, targetClass := source.targetClass, method := m, arguments := args }
    return outcome.map fun v => if target.any v.isObject then proxy else v

/-- Calls a method through a configuration: the target is acquired before and given back after. -/
def callThrough (host : Host World) (n : Nat) (proxy : Value) (m : Method) (args : List Value) :
    Deed (Outcome Value) := do
  match (← world).configurations[n]? with
  | none => return .error (.ofFault (.noTarget m.text))
  | some c =>
    let source := (← world).sourceOf c
    match ← acquire c.source with
    | .error f => return .error f
    | .ok target =>
      ensuring (intercept host n c.resolver source target proxy m args) (dispose c.source target)

/-- Calls a method on a handle, if the handle exposes it. -/
def callHandle (host : Host World) (o : ObjectRef) (m : Method) (args : List Value) :
    Deed (Outcome Value) := do
  match (← world).handles[o.serial]? with
  | none => return .error (.ofFault (.noTarget m.text))
  | some h =>
    if h.plan.exposes m then
      refresh o.serial
      callThrough host h.configuration (.object (.handle o)) m args
    else return .error (.ofFault (.methodNotExposed m.text h.plan.describe))

/-- Carries out a command, where calls on handles are given by what they do. -/
def command (callHandle : ObjectRef → Method → List Value → Deed (Outcome Value)) :
    Command → Deed (Outcome Value)
  | .call (.bean o) m args => callBean o m args
  | .call (.handle o) m args => callHandle o m args
  | .register n => do
    modifyWorld fun w => { w with registry := w.aspects[n]?.elim w.registry w.registry.register }
    return .ok .unit
  | .registerAdvisor n => do
    modifyWorld fun w =>
      { w with registry := w.advisors[n]?.elim w.registry w.registry.registerAdvisor }
    return .ok .unit
  | .unregister name => do
    modifyWorld fun w => { w with registry := (w.registry.unregister name).2 }
    return .ok .unit
  | .clearRegistry => do
    modifyWorld fun w => { w with registry := w.registry.clear }
    return .ok .unit
  | .swap n t => do
    modifyWorld fun w => w.setSource n ((w.source n).swap t).2
    return .ok .unit

end Deed

namespace World

/-- The world as invocations know it, where calls on handles may be nested to a given depth. -/
def host : Nat → Host World
  | 0 =>
    { obey := fun c => Deed.reaction (Deed.command (fun _ _ _ => throw .nestedTooDeep) c)
      clock := fun w => w.clock }
  | n + 1 =>
    { obey := fun c => Deed.reaction (Deed.command (Deed.callHandle (host n)) c)
      clock := fun w => w.clock }

end World
end Weaving
