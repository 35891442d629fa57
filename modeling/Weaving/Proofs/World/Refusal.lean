import Weaving.Proofs.Proxy.Atomicity
import Weaving.Proofs.Resolution
import Weaving.Proofs.World.Deeds

/-! Refused refreshes. A proxy whose configuration refuses the advisors that are eligible now makes the call
all the same, along the chain that it would have used without looking for changes. -/
namespace Weaving

namespace Deed

/-- Calls a method with a target that has been acquired, along a chain that is given. The chain for it is
looked up as ever, but what comes of that is not used. -/
def interceptAlong (host : Host World) (n : Nat) (source : Source) (target : Option Target)
    (proxy : Value) (m : Method) (args : List Value) (chain : Except Fault Chain) :
    Deed (Outcome Value) := do
  let _ ← edit n (Advised.chainFor source.isStatic m source.targetClass)
  match chain with
  | .error f => return .error (.ofFault f)
  | .ok chain =>
    let outcome ← callAlong host chain
      { proxy, target, targetClass := source.targetClass, method := m, arguments := args }
    return outcome.map fun v => if target.any v.isObject then proxy else v

/-- Calls a method through a configuration, along a chain that is given. -/
def callThroughAlong (host : Host World) (n : Nat) (proxy : Value) (m : Method) (args : List Value)
    (chain : Except Fault Chain) : Deed (Outcome Value) := do
  match (← world).configurations[n]? with
  | none => return .error (.ofFault (.noTarget m.text))
  | some c =>
    let source := (← world).sourceOf c
    match ← acquire c.source with
    | .error f => return .error f
    | .ok target =>
      ensuring (interceptAlong host n source target proxy m args chain) (dispose c.source target)

theorem ensuring_congr {α : Type} {x y : Deed α} {s : Scene} (h : x s = y s) (last : Deed Unit) :
    ensuring x last s = ensuring y last s := by
  unfold ensuring
  rw [h]

variable {host : Host World} {n : Nat} {c : Configuration} {s : Scene}

theorem intercept_eq (hc : s.world.configurations[n]? = some c) (source : Source)
    (target : Option Target) (proxy : Value) (m : Method) (args : List Value) :
    intercept host n Advised.resolve source target proxy m args s =
      interceptAlong host n source target proxy m args
        (c.advised.chainNow m source.targetClass) s := by
  have hedit := edit_eq (Advised.chainFor source.isStatic m source.targetClass) hc
  rw [Advised.outcomeOf_chainFor] at hedit
  unfold intercept interceptAlong
  refine (bind_of_ok hedit).trans (Eq.trans ?_ (bind_of_ok hedit).symm)
  cases c.advised.chainNow m source.targetClass <;> rfl

/-- A call through a configuration runs along the chain for it, whatever its source does before. -/
theorem callThrough_eq (hc : s.world.configurations[n]? = some c) (usual : c.resolver = Advised.resolve)
    (proxy : Value) (m : Method) (args : List Value) :
    callThrough host n proxy m args s = callThroughAlong host n proxy m args
      (c.advised.chainNow m (s.world.sourceOf c).targetClass) s := by
  simp only [callThrough, callThroughAlong, world_bind, hc, usual]
  rw [bind_of_ok (acquire_eq c.source s), bind_of_ok (acquire_eq c.source s)]
  cases (s.world.source c.source).acquire.1.2 with
  | error f => rfl
  | ok target => exact ensuring_congr (intercept_eq (by exact hc) _ target proxy m args) _

/-- A handle follows a feed and has not seen its version; its configuration, which is not frozen and has its
chains resolved as usual, refuses the advisors that are eligible now and ends in a state. -/
structure Refuses (s : Scene) (k : Nat) (h : Handle) (f : Following) (c : Configuration) (fault : Fault)
    (e : Editing) : Prop where
  handle : s.world.handles[k]? = some h
  following : h.following = some f
  unseen : s.world.version f.feed ≠ f.seen
  configuration : s.world.configurations[h.configuration]? = some c
  thawed : c.advised.config.frozen = false
  usual : c.resolver = Advised.resolve
  refused : Advised.replaceAdvisors (s.world.eligible f.feed f.bean f.beanClass).items
    ⟨c.advised, s.world.asked, []⟩ = .error fault e

/-- A refresh that is refused leaves all configurations alone: the version counts as seen, introductions
have been asked, and a warning is logged. -/
theorem refresh_refused {k : Nat} {h : Handle} {f : Following} {fault : Fault} {e : Editing}
    (hr : Refuses s k h f c fault e) : refresh k s = .ok ()
      ⟨{ s.world with
          asked := e.asked
          handles := s.world.handles.set k (h.upTo f (s.world.version f.feed)) },
        s.journal ++ (s.world.eligible f.feed f.bean f.beanClass).warnings ++
          [.warn ("Failed to refresh advisors for bean '" ++ f.bean ++ "': " ++ fault.message)]⟩ := by
  obtain ⟨asked, rfl⟩ := Advised.replaceAdvisors_atomic _ _ _ _ hr.refused
  have hset : s.world.configurations.set h.configuration c = s.world.configurations := by
    obtain ⟨hlt, hc⟩ := List.getElem?_eq_some_iff.mp hr.configuration
    rw [← hc, List.set_getElem_self]
  have htake := takeOver_refused hr.configuration hr.thawed hr.refused
  dsimp only [Scene.edited] at htake
  rw [hset, List.append_nil] at htake
  rw [refresh_changed hr.handle hr.following hr.unseen, bind_of_ok htake]
  rfl

/-- Failures change nothing. An operation that fails leaves the configuration as it was, with its settings,
interfaces, advisors, generation and chains. A frozen configuration refuses every operation, and none of
any that are attempted changes anything. A call on a handle whose refresh is refused runs along the very
chain that it would run along if there had been no refresh, through the same configurations and sources. -/
theorem failures_change_nothing :
    (∀ (op : Operation) (e e' : Editing) (fault : Fault), op.edit e = .error fault e' →
      e'.advised = e.advised) ∧
    (∀ e : Editing, e.advised.config.frozen = true →
      (∀ op : Operation, ∃ fault, op.edit e = .error fault e) ∧
        ∀ ops, Operation.attempt e ops = e) ∧
    ∀ (host : Host World) (s : Scene) (o : ObjectRef) (h : Handle) (f : Following) (c : Configuration)
      (fault : Fault) (e : Editing), Refuses s o.serial h f c fault e →
      ∀ (m : Method) (args : List Value), h.plan.exposes m = true →
        let along := callThroughAlong host h.configuration (.object (.handle o)) m args
          (c.advised.chainNow m (s.world.sourceOf c).targetClass)
        callThrough host h.configuration (.object (.handle o)) m args s = along s ∧
          ∃ t, refresh o.serial s = .ok () t ∧ callHandle host o m args s = along t ∧
            t.world.configurations = s.world.configurations ∧ t.world.sources = s.world.sources := by
  refine ⟨fun op e e' fault he => ?_, fun e he => ⟨fun op => op.edit_frozen he, fun ops =>
    Operation.attempt_frozen ops he⟩, ?_⟩
  · obtain ⟨asked, rfl⟩ := op.edit_atomic e fault e' he
    rfl
  · intro host s o h f c fault e hr m args hm
    have hrefresh := refresh_refused hr
    refine ⟨callThrough_eq hr.configuration hr.usual _ m args, _, hrefresh, ?_, rfl, rfl⟩
    rw [callHandle_eq hr.handle hm hrefresh]
    exact callThrough_eq (by exact hr.configuration) hr.usual _ m args

/-- An introduction whose interceptor no longer admits to what it introduces. -/
def lapsed : Advisor :=
  ⟨.introduction ⟨.any, ["Lockable"], ⟨0, ⟨"lock", Program.proceed⟩, fun _ _ => false⟩⟩, none, none⟩

def safeClass : Class := ⟨⟨"Safe", ["Store"], [⟨"Store", "put", []⟩], false, false, false⟩, []⟩

def safeFollowing : Following := ⟨.registry, "safe", safeClass, 0⟩

def safeHandle : Handle := ⟨⟨none, ["Store"]⟩, 0, some safeFollowing⟩

def safeConfiguration : Configuration := { advised := {}, source := 0 }

/-- A proxy for a safe has no advisors yet, and the only one to follow has lapsed. -/
def safeScene : Scene where
  world :=
    { beans := [fun _ _ _ _ => ⟨.ok .unit, [], 0⟩]
      sources := [.singleton (.bean ⟨0, "safe"⟩) (some safeClass)]
      configurations := [safeConfiguration]
      handles := [safeHandle]
      registry := ⟨[], [lapsed], 1⟩ }

/-- The refresh for the safe is refused, and the call reaches the safe directly, as without it. -/
theorem safe_unchanged :
    ∃ fault e t, Refuses safeScene 0 safeHandle safeFollowing safeConfiguration fault e ∧
      refresh 0 safeScene = .ok () t ∧
      callHandle (World.host 0) ⟨0, "safe"⟩ ⟨"Store", "put", []⟩ [] safeScene =
        callThroughAlong (World.host 0) 0 (.object (.handle ⟨0, "safe"⟩)) ⟨"Store", "put", []⟩ []
          (.ok []) t := by
  have heligible : safeScene.world.eligible .registry "safe" safeClass = ⟨[lapsed], 0⟩ :=
    topologicalSort_singleton _ _
  have hr : Refuses safeScene 0 safeHandle safeFollowing safeConfiguration
      (.introductionConflict "interceptor 'lock' does not implement introduced interface 'Lockable'")
      ⟨{}, fun n => if n = 0 then 1 else 0, []⟩ := by
    refine ⟨rfl, rfl, by decide, rfl, rfl, rfl, ?_⟩
    change Advised.replaceAdvisors (safeScene.world.eligible .registry "safe" safeClass).items _ = _
    rw [heligible]
    rfl
  obtain ⟨-, t, hrefresh, hcall, -⟩ := failures_change_nothing.2.2 (World.host 0) safeScene
    ⟨0, "safe"⟩ _ _ _ _ _ hr ⟨"Store", "put", []⟩ [] rfl
  exact ⟨_, _, t, hr, hrefresh, hcall⟩

end Deed
end Weaving
