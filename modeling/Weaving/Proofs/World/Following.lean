import Weaving.Proofs.World.Preservation
import Weaving.Proofs.World.Wrapping

/-! Proxies follow the registry. Each call on a proxy, at any depth of nesting, runs the chain that is
resolved for the advisors eligible at its start, just as if the proxy had been made at that moment. -/
namespace Weaving

namespace Follower

open Deed

/-- The chain for a method that a proxy made now for the bean would run. -/
def chain (f : Follower) (w : World) (m : Method) : Except Fault Chain :=
  (Chain.resolve f.adapters (f.eligible w) m (some f.beanClass)).1.map Resolution.chain

/-- Runs a chain on the bean, if it could be resolved. -/
def along (f : Follower) (host : Host World) (o : ObjectRef) (m : Method) (args : List Value) :
    Except Fault Chain → Deed (Outcome Value)
  | .error e => return .error (.ofFault e)
  | .ok chain => do
    let outcome ← callAlong host chain
      { proxy := .object (.handle o), target := some f.target, targetClass := some f.beanClass,
        method := m, arguments := args }
    return outcome.map fun v => if v.isObject f.target then .object (.handle o) else v

/-- A call that runs the chain for the advisors eligible at its start. The proxy takes over advisors and
keeps chains as ever, but what it keeps is not used. -/
def callAfresh (f : Follower) (host : Host World) (o : ObjectRef) (m : Method) (args : List Value) :
    Deed (Outcome Value) := do
  if f.plan.exposes m then
    let chain := f.chain (← world) m
    refresh f.serial
    let _ ← edit f.configuration (Advised.chainFor true m (some f.beanClass))
    f.along host o m args chain
  else return .error (.ofFault (.methodNotExposed m.text f.plan.describe))

/-- Calls on the proxy are made afresh, and those on other handles as ever. -/
def call (f : Follower) (host : Host World) (o : ObjectRef) (m : Method) (args : List Value) :
    Deed (Outcome Value) :=
  if o.serial = f.serial then f.callAfresh host o m args else callHandle host o m args

/-- The world in which all calls on the proxy are made afresh, also those within calls. -/
def host (f : Follower) : Nat → Host World
  | 0 => World.host 0
  | n + 1 =>
    { obey := fun c => reaction (command (f.call (f.host n)) c)
      clock := fun w => w.clock }

variable {f : Follower} {host host' : Host World}

theorem coincide_along (h : Host.Coincide f.Holds host host') (o : ObjectRef) (m : Method)
    (args : List Value) (r : Except Fault Chain) :
    Coincide f.Within (f.along host o m args r) (f.along host' o m args r) := by
  cases r with
  | error e => exact .pure _
  | ok chain => exact (coincide_callAlong h _ _).bind fun _ => .pure _

theorem acquire_own {s : Scene} (h : f.Within s) :
    acquire f.source s = .ok (.ok (some f.target)) s := by
  obtain ⟨seen, d, h⟩ := h
  simp only [acquire, world_bind, h.source_eq, Source.acquire, modifyWorld_bind, h.setSource_eq,
    journal_bind, List.append_nil]
  rfl

theorem dispose_own {s : Scene} (h : f.Within s) :
    dispose f.source (some f.target) s = .ok () s := by
  obtain ⟨seen, d, h⟩ := h
  simp only [dispose, world_bind, h.source_eq, Source.dispose, Source.release, modifyWorld_bind,
    h.setSource_eq]
  simp only [journal_eq, List.append_nil]

theorem ensuring_own {α : Type} {x : Deed α} {s : Scene} (h : f.Within (stateOf (x s))) :
    ensuring x (dispose f.source (some f.target)) s = x s := by
  unfold ensuring
  cases hx : x s with
  | ok a t =>
    have ht : f.Within t := by rwa [hx] at h
    simp only [dispose_own ht]
  | error e t =>
    have ht : f.Within t := by rwa [hx] at h
    simp only [dispose_own ht]

/-- A call through the proxy's configuration is a lookup and a run of the chain on the bean. -/
theorem callThrough_own {s : Scene} (hhost : Host.Coincide f.Holds host host) (hs : f.Within s)
    (o : ObjectRef) (m : Method) (args : List Value) :
    callThrough host f.configuration (.object (.handle o)) m args s =
      (edit f.configuration (Advised.chainFor true m (some f.beanClass)) >>=
        f.along host o m args) s := by
  obtain ⟨seen, d, h⟩ := hs
  have hintercept : intercept host f.configuration Advised.resolve
      (.singleton f.target (some f.beanClass)) (some f.target) (.object (.handle o)) m args =
        (edit f.configuration (Advised.chainFor true m (some f.beanClass)) >>=
          f.along host o m args) := by
    refine congrArg (edit f.configuration _ >>= ·) (funext fun r => ?_)
    cases r <;> rfl
  have hkeeps : f.Within (stateOf ((edit f.configuration (Advised.chainFor true m (some f.beanClass)) >>=
      f.along host o m args) s)) := by
    obtain ⟨t, d', hedit, h'⟩ := edit_chainFor h m
    rw [bind_of_ok hedit]
    exact (coincide_along hhost o m args _).keeps ⟨seen, d', h'⟩
  have hsource : s.world.sourceOf (f.configured d) = .singleton f.target (some f.beanClass) := h.source_eq
  simp only [callThrough, world_bind, h.configuration, hsource, configured_source, configured_resolver]
  rw [bind_of_ok (acquire_own ⟨seen, d, h⟩)]
  dsimp only
  rw [hintercept]
  exact ensuring_own hkeeps

/-- A call on the proxy does what a call made afresh does. -/
theorem coincide_own (h : Host.Coincide f.Holds host host') {o : ObjectRef} (ho : o.serial = f.serial)
    (m : Method) (args : List Value) :
    Coincide f.Within (callHandle host o m args) (f.callAfresh host' o m args) := by
  apply Coincide.of_eq
  intro s hs
  obtain ⟨seen, d, hp⟩ := hs
  simp only [callHandle, callAfresh, world_bind, ho, hp.handle, handle]
  by_cases hm : f.plan.exposes m = true
  · obtain ⟨t, seen', d', hrefresh, hp', hcurrent⟩ := refresh_own hp
    obtain ⟨u, d'', hedit, hp''⟩ := edit_chainFor hp' m
    rw [hcurrent] at hedit
    simp only [hm, if_true, world_bind]
    rw [bind_of_ok hrefresh, bind_of_ok hrefresh, bind_of_ok hedit,
      callThrough_own h.left ⟨seen', d', hp'⟩, bind_of_ok hedit]
    have halong := coincide_along h o m args (f.chain s.world m)
    exact ⟨halong.eq ⟨seen', d'', hp''⟩, halong.keeps ⟨seen', d'', hp''⟩⟩
  · simp only [hm]
    exact ⟨rfl, seen, d, hp⟩

theorem coincide_call (h : Host.Coincide f.Holds host host') (o : ObjectRef) (m : Method)
    (args : List Value) : Coincide f.Within (callHandle host o m args) (f.call host' o m args) := by
  unfold call
  by_cases ho : o.serial = f.serial
  · rw [if_pos ho]
    exact coincide_own h ho m args
  · rw [if_neg ho]
    exact coincide_callHandle h ho m args

theorem coincide_registry {g : World → Registry}
    (hg : ∀ w : World, w.Steadfast f.bean f.beanClass →
      w.registry.Moved (g w) ∧ (g w).Steadfast f.bean f.beanClass) :
    Coincide f.Within (modifyWorld fun w => { w with registry := g w })
      (modifyWorld fun w => { w with registry := g w }) := by
  refine .refl fun s hs => ?_
  obtain ⟨seen, d, h⟩ := hs
  obtain ⟨hmoved, hsteadfast⟩ := hg s.world h.steadfast
  exact ⟨seen, d, h.setRegistry hmoved hsteadfast⟩

/-- Every command raises the version of the registry if it changes it. -/
theorem coincide_command {call call' : ObjectRef → Method → List Value → Deed (Outcome Value)}
    (h : ∀ o m args, Coincide f.Within (call o m args) (call' o m args)) (c : Command) :
    Coincide f.Within (command call c) (command call' c) := by
  cases c with
  | call receiver m args =>
    cases receiver with
    | bean o => exact coincide_callBean o m args
    | handle o => exact h o m args
  | register n =>
    refine (coincide_registry fun w hw => ?_).bind fun _ => .pure _
    cases hx : w.aspects[n]? with
    | none => exact ⟨.inl rfl, hw.registry⟩
    | some x =>
      exact ⟨.inr (Nat.lt_succ_self _), hw.registry.register (hw.aspects x (List.mem_of_getElem? hx))⟩
  | registerAdvisor n =>
    refine (coincide_registry fun w hw => ?_).bind fun _ => .pure _
    cases ha : w.advisors[n]? with
    | none => exact ⟨.inl rfl, hw.registry⟩
    | some a =>
      exact ⟨.inr (Nat.lt_succ_self _),
        hw.registry.registerAdvisor (hw.advisors a (List.mem_of_getElem? ha))⟩
  | unregister name =>
    exact (coincide_registry fun w hw => ⟨Registry.moved_unregister name,
      hw.registry.unregister name⟩).bind fun _ => .pure _
  | clearRegistry =>
    exact (coincide_registry fun w _ => ⟨.inr (Nat.lt_succ_self _), .clear⟩).bind fun _ => .pure _
  | swap n t =>
    refine Coincide.bind (.refl fun s hs => ?_) fun _ => .pure _
    obtain ⟨seen, d, hp⟩ := hs
    refine ⟨seen, d, hp.setSource fun hn => ?_⟩
    subst hn
    rw [hp.source_eq]
    rfl

/-- At every depth of nesting the world does what it does if calls on the proxy are made afresh. -/
theorem coincide_host (f : Follower) (depth : Nat) :
    Host.Coincide f.Holds (World.host depth) (f.host depth) := by
  induction depth with
  | zero =>
    refine ⟨fun c w hw => ?_, rfl⟩
    exact coincide_reaction (coincide_command (fun _ _ _ => .throw _) c) hw
  | succ depth ih =>
    refine ⟨fun c w hw => ?_, rfl⟩
    exact coincide_reaction (coincide_command (coincide_call ih) c) hw

/-- Carries out commands one after another. -/
def carryOut (host : Host World) : List Command → Deed (List (Outcome Value))
  | [] => return []
  | c :: cs => do
    let outcome ← obey host c
    let outcomes ← carryOut host cs
    return outcome :: outcomes

theorem coincide_carryOut (h : Host.Coincide f.Holds host host') (cs : List Command) :
    Coincide f.Within (carryOut host cs) (carryOut host' cs) := by
  induction cs with
  | nil => exact .pure _
  | cons c cs ih => exact (coincide_obey h c).bind fun _ => ih.bind fun _ => .pure _

end Follower

namespace Creator

/-- Automatic proxies follow the registry. Wrap a bean, with advisors from the registry and a
configuration that is not frozen, and carry out any commands afterwards, which change the registry or
make calls, also from within calls: everything comes out as if each call on the proxy were made afresh,
along the chain for the advisors eligible when it starts. What is generated in place of a handle must
not pass for one, every handle must have a configuration, and introductions must stay valid. -/
theorem calls_follow_registry {c : Creator} {bean : Target} {name : String} {beanClass : Class}
    {s s' : Scene} {o : ObjectRef} (feed : c.feed = .registry) (thawed : c.config.frozen = false)
    (made : ∀ plan, c.generate plan ≠ .ok (.value (.object (.handle o))))
    (backed : ∀ h ∈ s.world.handles, h.configuration < s.world.configurations.length)
    (steadfast : s.world.Steadfast name beanClass)
    (wrapped : c.wrap bean name beanClass s = .ok (.ok (.proxied (.object (.handle o)))) s') :
    ∃ plan, s'.world.handles[o.serial]? =
        some ((c.follower bean name beanClass s.world plan).handle s'.world.registry.version) ∧
      ∀ depth commands, Follower.carryOut (World.host depth) commands s' =
        Follower.carryOut ((c.follower bean name beanClass s.world plan).host depth) commands s' := by
  obtain ⟨ho, plan, d, h⟩ := present_of_wrap feed thawed made backed steadfast wrapped
  refine ⟨plan, ?_, fun depth commands => ?_⟩
  · rw [ho]
    exact h.handle
  · exact (Follower.coincide_carryOut (Follower.coincide_host _ depth) commands).eq ⟨_, d, h⟩

/-- A registry with one advisor, which applies to every method. -/
def registered : Scene := ⟨{ registry := ⟨[], [.always (.around Traffic.bystander)], 1⟩ }, []⟩

def serviceClass : Class :=
  ⟨⟨"ServiceImpl", ["Service"], [⟨"Service", "serve", []⟩], false, false, false⟩, []⟩

def serviceCreator : Creator := { feed := .registry }

/-- The proxy of a service has been made, and its handle is the first. -/
def served : Scene :=
  stateOf (serviceCreator.makeProxy (.bean ⟨0, "service"⟩) "service" serviceClass 1
    [.always (.around Traffic.bystander)] registered)

/-- A call before and a call after the registry is cleared. -/
def callsAroundClearing : List Command :=
  [.call (.handle ⟨0, "service"⟩) ⟨"Service", "serve", []⟩ [], .clearRegistry,
    .call (.handle ⟨0, "service"⟩) ⟨"Service", "serve", []⟩ []]

theorem service_follows_registry :
    serviceCreator.wrap (.bean ⟨0, "service"⟩) "service" serviceClass registered =
        .ok (.ok (.proxied (.object (.handle ⟨0, "service"⟩)))) served ∧
      ∃ plan, Follower.carryOut (World.host 1) callsAroundClearing served =
        Follower.carryOut ((serviceCreator.follower (.bean ⟨0, "service"⟩) "service" serviceClass
          registered.world plan).host 1) callsAroundClearing served := by
  have heligible : registered.world.eligible .registry "service" serviceClass =
      ⟨[.always (.around Traffic.bystander)], 0⟩ :=
    topologicalSort_singleton _ _
  have hwrap : serviceCreator.wrap (.bean ⟨0, "service"⟩) "service" serviceClass registered =
      .ok (.ok (.proxied (.object (.handle ⟨0, "service"⟩)))) served := by
    have hproxied : (!serviceCreator.enabled || serviceClass.isProxy) = false := rfl
    have hfeed : serviceCreator.feed = .registry := rfl
    unfold wrap
    simp only [hproxied, Bool.false_eq_true, if_false, Deed.world_bind, Deed.journal_bind,
      hfeed, heligible]
    rfl
  have hsteadfast : registered.world.Steadfast "service" serviceClass := by
    refine ⟨⟨by simp [registered], fun a ha i hi => ?_⟩, by simp [registered], by simp [registered]⟩
    obtain rfl : a = .always (.around Traffic.bystander) := by simpa [registered] using ha
    cases hi
  obtain ⟨plan, -, h⟩ := calls_follow_registry (c := serviceCreator) rfl rfl
    (fun plan hplan => by cases hplan) (by simp [registered]) hsteadfast hwrap
  exact ⟨hwrap, plan, h 1 callsAroundClearing⟩

end Creator
end Weaving
