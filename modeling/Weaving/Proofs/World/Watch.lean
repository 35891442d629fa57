import Weaving.Proofs.Invocation.Hosts
import Weaving.Proofs.World.Event
import Weaving.World.Call

/-! Calls under watch. Deeds are done as ever, and what happens to target sources and to targets meanwhile is
recorded. -/
namespace Weaving

/-- A world with what has been recorded. -/
structure Watched where
  world : World
  events : List Watch.Event

/-- A scene with what has been recorded. -/
structure Watching where
  scene : Scene
  events : List Watch.Event

abbrev Watch := EStateM Abort Watching

namespace Watch

/-- A deed during which nothing is recorded. -/
def deed {α : Type} (d : Deed α) : Watch α := fun s =>
  match d s.scene with
  | .ok a t => .ok a ⟨t, s.events⟩
  | .error e t => .error e ⟨t, s.events⟩

def record (e : Event) : Watch Unit := modify fun s => { s with events := s.events ++ [e] }

/-- Acquires a target from a source. -/
def acquire (n : Nat) : Watch (Outcome (Option Target)) := do
  let outcome ← deed (Deed.acquire n)
  record (.acquired n outcome)
  return outcome

/-- Gives a target back to its source, if there is one. -/
def dispose (n : Nat) (target : Option Target) : Watch Unit := do
  match target with
  | none => pure ()
  | some t =>
    let source := (← deed Deed.world).source n
    deed (Deed.dispose n (some t))
    record (.released n t (source.release t).1.2)

/-- Records what comes of a call. -/
def finishing (d : Watch (Outcome Value)) : Watch (Outcome Value) := fun s =>
  match d s with
  | .ok o s => .ok o { s with events := s.events ++ [.finished (.ok o)] }
  | .error e s => .error e { s with events := s.events ++ [.finished (.error e)] }

/-- Does one thing after another, also when the first is aborted. -/
def ensuring {α : Type} (first : Watch α) (last : Watch Unit) : Watch α := fun s =>
  match first s with
  | .ok a s => match last s with
    | .ok () s => .ok a s
    | .error e s => .error e s
  | .error e s => match last s with
    | .ok () s => .error e s
    | .error e s => .error e s

/-- Lets something play around an invocation in the world. -/
def play {α : Type} (i : Invocation) (p : Play Watched α) : Watch (α × Invocation) := fun s =>
  match p ⟨i, ⟨s.scene.world, s.events⟩, s.scene.journal⟩ with
  | .ok a t => .ok (a, t.invocation) ⟨⟨t.world.world, t.journal⟩, t.world.events⟩
  | .error e t => .error e ⟨⟨t.world.world, t.journal⟩, t.world.events⟩

def obey (host : Host Watched) (c : Command) : Watch (Outcome Value) := fun s =>
  let r := host.obey c ⟨s.scene.world, s.events⟩
  let s := ⟨⟨r.world.world, s.scene.journal ++ r.entries⟩, r.world.events⟩
  match r.result with
  | .ok o => .ok o s
  | .error e => .error e s

/-- What a watched deed comes to when nothing has been journalled before. -/
def reaction {α : Type} (d : Watch α) (w : Watched) : Reaction Watched α :=
  match d ⟨⟨w.world, []⟩, w.events⟩ with
  | .ok a s => ⟨.ok a, ⟨s.scene.world, s.events⟩, s.scene.journal⟩
  | .error e s => ⟨.error e, ⟨s.scene.world, s.events⟩, s.scene.journal⟩

/-- Calls the target itself. -/
def joinpoint (host : Host Watched) : Play Watched (Outcome Value) := do
  let i ← Play.invocation
  match i.target with
  | some t =>
    modify fun s => { s with world := { s.world with events := s.world.events ++ [.reached t] } }
    Play.command host (.call t i.method i.arguments)
  | none => return .error (.ofFault (.noTarget i.method.text))

/-- Calls a method along a chain, or directly if the chain is empty. -/
def callAlong (host : Host Watched) (chain : Chain) (i : Invocation) : Watch (Outcome Value) := do
  match chain, i.target with
  | [], some t =>
    record (.reached t)
    obey host (.call t i.method i.arguments)
  | [], none => return .error (.ofFault (.noTarget i.method.text))
  | chain, _ => return (← play i (Invocation.proceedTo host (joinpoint host) chain)).1

/-- Calls a method with a target that has been acquired, along the chain that a resolver gives for it. -/
def intercept (host : Host Watched) (n : Nat) (resolver : Resolver) (source : Source)
    (target : Option Target) (proxy : Value) (m : Method) (args : List Value) : Watch (Outcome Value) := do
  match ← deed (Deed.edit n (Advised.chainBy resolver source.isStatic m source.targetClass)) with
  | .error f => return .error (.ofFault f)
  | .ok chain =>
    let outcome ← callAlong host chain
      { proxy, target, targetClass := source.targetClass, method := m, arguments := args }
    return outcome.map fun v => if target.any v.isObject then proxy else v

/-- Calls a method through a configuration: the target is acquired before and given back after. -/
def callThrough (host : Host Watched) (n : Nat) (proxy : Value) (m : Method) (args : List Value) :
    Watch (Outcome Value) := do
  match (← deed Deed.world).configurations[n]? with
  | none => return .error (.ofFault (.noTarget m.text))
  | some c =>
    let source := (← deed Deed.world).sourceOf c
    match ← acquire c.source with
    | .error f => return .error f
    | .ok target =>
      ensuring (finishing (intercept host n c.resolver source target proxy m args))
        (dispose c.source target)

/-- Calls a method on a handle, if the handle exposes it. -/
def callHandle (host : Host Watched) (o : ObjectRef) (m : Method) (args : List Value) :
    Watch (Outcome Value) := do
  match (← deed Deed.world).handles[o.serial]? with
  | none => return .error (.ofFault (.noTarget m.text))
  | some h =>
    if h.plan.exposes m then
      deed (Deed.refresh o.serial)
      callThrough host h.configuration (.object (.handle o)) m args
    else return .error (.ofFault (.methodNotExposed m.text h.plan.describe))

/-- Carries out a command, where calls on handles are given by what they do; no other command makes any. -/
def command (callHandle : ObjectRef → Method → List Value → Watch (Outcome Value)) :
    Command → Watch (Outcome Value)
  | .call (.handle o) m args => callHandle o m args
  | .swap n t => do
    record (.swapped n t)
    deed (Deed.command (fun _ _ _ => throw .nestedTooDeep) (.swap n t))
  | c => deed (Deed.command (fun _ _ _ => throw .nestedTooDeep) c)

/-- The watched world as invocations know it, where calls on handles may be nested to a given depth. -/
def host : Nat → Host Watched
  | 0 =>
    { obey := fun c => reaction (command (fun _ _ _ => throw .nestedTooDeep) c)
      clock := fun w => w.world.clock }
  | n + 1 =>
    { obey := fun c => reaction (command (callHandle (host n)) c)
      clock := fun w => w.world.clock }

end Watch
end Weaving
