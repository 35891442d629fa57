import Weaving.Proofs.Invocation.Handing
import Weaving.Proofs.World.Deeds

/-! Targets that return themselves. A proxy stands in for the target of each of its calls, so that no call gives
its target away. Where proxies are the targets of other proxies, a bean that returns itself comes out as the
outermost one. -/
namespace Weaving

namespace Deed

variable {host : Host World} {n : Nat} {proxy : Value} {m : Method} {args : List Value} {s s' : Scene}
  {t : Target}

/-- The proxy stands in for the target, whatever the chain makes of the call. -/
theorem intercept_ne_target (hproxy : proxy ≠ .object t) (resolver : Resolver) (source : Source) :
    outcomeOf (intercept host n resolver source (some t) proxy m args s) ≠ .ok (.ok (.object t)) := by
  intro h
  obtain ⟨r, u, -, hr⟩ := exists_of_bind_ok (eq_ok_of_outcomeOf h)
  cases r with
  | error f => cases hr
  | ok chain =>
    obtain ⟨o, u', -, ho⟩ := exists_of_bind_ok hr
    cases o with
    | error f => cases ho
    | ok v =>
      injection ho with ho
      injection ho with hv
      simp only [Option.any_some, Value.isObject, decide_eq_true_eq] at hv
      split at hv
      · exact hproxy hv
      · contradiction

/-- A call along a chain that comes to the target is intercepted to the proxy. -/
theorem intercept_target {resolver : Resolver} {source : Source} {chain : Chain} {s'' : Scene}
    (finds : edit n (Advised.chainBy resolver source.isStatic m source.targetClass) s = .ok (.ok chain) s')
    (h : callAlong host chain
      { proxy, target := some t, targetClass := source.targetClass, method := m, arguments := args } s' =
        .ok (.ok (.object t)) s'') :
    outcomeOf (intercept host n resolver source (some t) proxy m args s) = .ok (.ok proxy) := by
  unfold intercept
  rw [bind_of_ok finds]
  dsimp only
  rw [bind_of_ok h]
  simp [outcomeOf, Except.map, pure, EStateM.pure]

/-- What calls on handles do where they may be nested to a depth. -/
def calling : Nat → ObjectRef → Method → List Value → Deed (Outcome Value)
  | 0 => fun _ _ _ => throw .nestedTooDeep
  | depth + 1 => callHandle (World.host depth)

theorem result_obey (depth : Nat) (c : Command) (w : World) :
    ((World.host depth).obey c w).result = outcomeOf (command (calling depth) c ⟨w, []⟩) := by
  have hreaction : (World.host depth).obey c w = reaction (command (calling depth) c) w := by
    cases depth <;> rfl
  rw [hreaction, reaction_eq]

end Deed

/-- A call on a handle that exposes the method draws a target from its source, and an invocation is set up to
proceed along the chain that is found for it. -/
inductive Opening (o : ObjectRef) (m : Method) (args : List Value) (s : Scene) :
    Target → Chain → Stage World → Prop
  | intro {refreshed drawn resolved : Scene} {h : Handle} {c : Configuration} {t : Target} {chain : Chain}
      (found : s.world.handles[o.serial]? = some h) (exposed : h.plan.exposes m = true)
      (refreshes : Deed.refresh o.serial s = .ok () refreshed)
      (configuration : refreshed.world.configurations[h.configuration]? = some c)
      (draws : Deed.acquire c.source refreshed = .ok (.ok (some t)) drawn)
      (finds : Deed.edit h.configuration (Advised.chainBy c.resolver (refreshed.world.sourceOf c).isStatic m
        (refreshed.world.sourceOf c).targetClass) drawn = .ok (.ok chain) resolved) :
      Opening o m args s t chain
        ⟨{ proxy := .object (.handle o), target := some t
           targetClass := (refreshed.world.sourceOf c).targetClass, method := m, arguments := args },
          resolved.world, resolved.journal⟩

/-- In a scene, a target is a tower of so many handles for a method, where calls may be nested to a depth. A
bean that returns itself is a tower of none. A handle is one if its source gives one of a handle less: the
interceptors of the chain that is found hand on, no other command of theirs is aborted, and whenever the target
is called on the way, it is a tower. -/
inductive Tower (m : Method) : Nat → Nat → Target → List Value → Scene → Prop
  | bean {depth : Nat} {o : ObjectRef} {args : List Value} {s : Scene} {b : Bean}
      (found : s.world.beans[o.serial]? = some b)
      (itself : (b (.bean o) (s.world.called o) m args).outcome = .ok (.object (.bean o))) :
      Tower m 0 depth (.bean o) args s
  | handle {height depth : Nat} {o : ObjectRef} {args : List Value} {s : Scene} {t : Target}
      {chain : Chain} {stage : Stage World} (opening : Opening o m args s t chain stage)
      (handsOn : chain.HandsOn)
      (answered : ∀ p ∈ Invocation.given (World.host depth) chain stage, (∀ args, p.1 ≠ .call t m args) →
        ∃ o, ((World.host depth).obey p.1 p.2).result = .ok o)
      (below : ∀ args w, (.call t m args, w) ∈ Invocation.given (World.host depth) chain stage →
        Tower m height depth t args ⟨w, []⟩) :
      Tower m (height + 1) (depth + 1) (.handle o) args s

/-- If the interceptors hand on and the target returns itself whenever it is called, the call returns the
handle. -/
theorem Opening.returns_handle {o : ObjectRef} {m : Method} {args : List Value} {s : Scene} {t : Target}
    {chain : Chain} {stage : Stage World} {host : Host World} (h : Opening o m args s t chain stage)
    (handsOn : chain.HandsOn)
    (answered : ∀ p ∈ Invocation.given host chain stage, Nesting.Answered host t m (.object t) p) :
    outcomeOf (Deed.callHandle host o m args s) = .ok (.ok (.object (.handle o))) := by
  cases h with
  | @intro refreshed drawn resolved h c _ _ found exposed refreshes configuration draws finds =>
    let call : Call := ⟨.object (.handle o), some t, (refreshed.world.sourceOf c).targetClass, m⟩
    let start : Carried World := ⟨args, [], resolved.world, resolved.journal⟩
    obtain ⟨stage', hproceed⟩ : ∃ s', Invocation.proceed host chain (start.stage call ⟨0, 0, false⟩) =
        .ok (.ok (.object t)) s' := Invocation.proceed_handsOn rfl handsOn answered
    have hplay : Deed.play (start.stage call ⟨0, 0, false⟩).invocation (Invocation.proceed host chain)
        resolved = .ok (.ok (.object t), stage'.invocation) ⟨stage'.world, stage'.journal⟩ :=
      Deed.play_of_ok hproceed
    have halong : Deed.callAlong host chain (start.stage call ⟨0, 0, false⟩).invocation resolved =
        .ok (.ok (.object t)) ⟨stage'.world, stage'.journal⟩ :=
      (Deed.callAlong_eq host chain _ _ _ _ _ _).trans (bind_of_ok hplay)
    rw [Deed.callHandle_eq found exposed refreshes, Deed.outcomeOf_callThrough configuration draws]
    exact Deed.intercept_target finds halong

namespace Tower

variable {m : Method} {height depth : Nat} {t : Target} {args : List Value} {s : Scene}

/-- A tower returns itself when it is called. -/
theorem returns_itself (h : Tower m height depth t args s) :
    outcomeOf (Deed.command (Deed.calling depth) (.call t m args) s) = .ok (.ok (.object t)) := by
  induction h with
  | bean found itself =>
    simp only [Deed.command, Deed.callBean, Deed.world_bind, found]
    exact congrArg Except.ok itself
  | @handle _ depth o _ _ t chain _ opening handsOn answered below ih =>
    change outcomeOf (Deed.callHandle (World.host depth) o m _ _) = _
    refine opening.returns_handle handsOn fun p hp => ?_
    by_cases hcall : ∃ args, p.1 = .call t m args
    · obtain ⟨args, hcall⟩ := hcall
      obtain ⟨c, w⟩ := p
      cases hcall
      exact ⟨_, (Deed.result_obey _ _ _).trans (ih args w hp), fun _ _ => rfl⟩
    · obtain ⟨o, ho⟩ := answered p hp fun args h => hcall ⟨args, h⟩
      exact ⟨o, ho, fun args h => absurd ⟨args, h⟩ hcall⟩

/-- On top of a tower stands a handle that calls it directly. -/
theorem direct {o : ObjectRef} {stage : Stage World} (opening : Opening o m args s t [] stage)
    (below : Tower m height depth t args ⟨stage.world, []⟩) :
    Tower m (height + 1) (depth + 1) (.handle o) args s := by
  have hgiven : Invocation.given (World.host depth) [] stage = [(.call t m args, stage.world)] := by
    cases opening with
    | @intro refreshed _ resolved _ c =>
      exact @Invocation.given_nil _ ⟨.object (.handle o), some t, (refreshed.world.sourceOf c).targetClass, m⟩
        t rfl (World.host depth) ⟨args, [], resolved.world, resolved.journal⟩
  refine .handle opening nofun ?_ ?_
  · intro p hp hother
    rw [hgiven, List.mem_singleton] at hp
    exact absurd (congrArg Prod.fst hp) (hother args)
  · intro args' w hw
    rw [hgiven, List.mem_singleton] at hw
    cases hw
    exact below

end Tower

namespace Deed

/-- Targets do not leak. A call on a tower of one or more handles over a bean that returns itself returns the
outermost handle, from whatever sources and whatever else the interceptors do, if they hand on what proceeding
gave them last. A call through a proxy that is not its own target does not return the target that it has
acquired, whatever its interceptors return. -/
theorem self_return_never_leaks :
    (∀ (m : Method) (height depth : Nat) (o : ObjectRef) (args : List Value) (s : Scene),
      Tower m (height + 1) (depth + 1) (.handle o) args s →
        outcomeOf (callHandle (World.host depth) o m args s) = .ok (.ok (.object (.handle o)))) ∧
    (∀ (host : Host World) (n : Nat) (c : Configuration) (proxy : Value) (m : Method) (args : List Value)
      (s s' : Scene) (t : Target), s.world.configurations[n]? = some c →
        acquire c.source s = .ok (.ok (some t)) s' → proxy ≠ .object t →
          outcomeOf (callThrough host n proxy m args s) ≠ .ok (.ok (.object t))) ∧
    ∀ (host : Host World) (o : ObjectRef) (h : Handle) (c : Configuration) (m : Method) (args : List Value)
      (s s' : Scene) (t : Target), s.world.handles[o.serial]? = some h →
        (stateOf (refresh o.serial s)).world.configurations[h.configuration]? = some c →
          acquire c.source (stateOf (refresh o.serial s)) = .ok (.ok (some t)) s' → t ≠ .handle o →
            outcomeOf (callHandle host o m args s) ≠ .ok (.ok (.object t)) := by
  have hsingle (host : Host World) (n : Nat) (c : Configuration) (proxy : Value) (m : Method)
      (args : List Value) (s s' : Scene) (t : Target) (hc : s.world.configurations[n]? = some c)
      (hacquire : acquire c.source s = .ok (.ok (some t)) s') (hproxy : proxy ≠ .object t) :
      outcomeOf (callThrough host n proxy m args s) ≠ .ok (.ok (.object t)) := by
    rw [outcomeOf_callThrough hc hacquire]
    exact intercept_ne_target hproxy _ _
  refine ⟨fun m height depth o args s h => h.returns_itself, hsingle, ?_⟩
  intro host o h c m args s s' t hh hc hacquire ht
  by_cases exposed : h.plan.exposes m = true
  · obtain ⟨_, refreshed, hrefresh⟩ := returns_refresh o.serial s
    rw [hrefresh] at hc hacquire
    rw [callHandle_eq hh exposed hrefresh]
    refine hsingle host _ c _ m args refreshed s' t hc hacquire fun hsame => ht ?_
    cases hsame
    rfl
  · simp only [callHandle, world_bind, hh, exposed]
    intro hfault
    cases hfault

def lend : Method := ⟨"Shelf", "lend", []⟩

def book : ObjectRef := ⟨0, "book"⟩

def shelf : ObjectRef := ⟨0, "shelf"⟩

def desk : ObjectRef := ⟨1, "desk"⟩

/-- A bean whose methods return it. -/
def fluent : Bean := fun self _ _ _ => ⟨.ok (.object self), [], 0⟩

/-- Advice that lends twice. -/
def twice : Chain := [⟨⟨"twice", .step .proceed fun _ => .step .proceed fun o => .done o⟩, none⟩]

def shelfHandle : Handle := ⟨⟨none, ["Shelf"]⟩, 0, none⟩

def shelfConfiguration : Configuration := { advised := {}, source := 0 }

def deskConfiguration : Configuration where
  advised := { cache := [(⟨none, lend⟩, twice)] }
  source := 1

/-- A desk that lends from a shelf, which takes the book anew for each call. -/
def library : World where
  beans := [fluent]
  sources := [.prototype (.named "Book") (fun _ => ([], .ok (.bean book))) 0, .singleton (.handle shelf) none]
  configurations := [shelfConfiguration, deskConfiguration]
  handles := [shelfHandle, ⟨⟨none, ["Shelf"]⟩, 1, none⟩]

/-- The shelf is as it is in the library. -/
structure Stocked (w : World) : Prop where
  bean : w.beans[0]? = some fluent
  handle : w.handles[0]? = some shelfHandle
  configuration : w.configurations[0]? = some shelfConfiguration
  source : ∃ n, w.source 0 = .prototype (.named "Book") (fun _ => ([], .ok (.bean book))) n

theorem Stocked.tower {w : World} (h : Stocked w) (args : List Value) :
    Tower lend 1 1 (.handle shelf) args ⟨w, []⟩ := by
  obtain ⟨n, hsource⟩ := h.source
  have hrefresh : refresh shelf.serial ⟨w, []⟩ = .ok () ⟨w, []⟩ := by
    refine refresh_unchanged fun x f hx hf => ?_
    cases h.handle.symm.trans hx
    cases hf
  let later := w.setSource 0 (.prototype (.named "Book") (fun _ => ([], .ok (.bean book))) (n + 1))
  have hdraw : acquire shelfConfiguration.source ⟨w, []⟩ = .ok (.ok (some (.bean book))) ⟨later, []⟩ := by
    simp only [acquire_eq, shelfConfiguration, hsource]
    rfl
  have hsourceOf : w.sourceOf shelfConfiguration =
      .prototype (.named "Book") (fun _ => ([], .ok (.bean book))) n := hsource
  have hfind : edit 0 (Advised.chainBy Advised.resolve (w.sourceOf shelfConfiguration).isStatic lend
      (w.sourceOf shelfConfiguration).targetClass) ⟨later, []⟩ =
        .ok (.ok []) (Scene.edited ⟨later, []⟩ 0 shelfConfiguration ⟨{}, w.asked, []⟩) := by
    have hc : (⟨later, []⟩ : Scene).world.configurations[0]? = some shelfConfiguration := h.configuration
    rw [hsourceOf]
    exact edit_eq _ hc
  exact .direct (.intro h.handle rfl hrefresh h.configuration hdraw hfind) (.bean (b := fluent) h.bean rfl)

theorem library_tower : Tower lend 2 2 (.handle desk) [] ⟨library, []⟩ := by
  obtain ⟨stage, opening, hgiven⟩ :
      ∃ stage, Opening desk lend [] ⟨library, []⟩ (.handle shelf) twice stage ∧
        ∀ p ∈ Invocation.given (World.host 1) twice stage,
          p.1 = .call (.handle shelf) lend [] ∧ Stocked p.2 := by
    refine ⟨_, .intro rfl rfl rfl rfl rfl rfl, ?_⟩
    refine List.forall_mem_cons.mpr ⟨⟨rfl, rfl, rfl, rfl, _, rfl⟩, ?_⟩
    exact List.forall_mem_cons.mpr ⟨⟨rfl, rfl, rfl, rfl, _, rfl⟩, nofun⟩
  have handsOn : twice.HandsOn := by
    intro e he
    rw [List.mem_singleton.mp he]
    exact ⟨.proceed fun _ => .proceed fun o => .done o, fun _ => ⟨true, rfl⟩⟩
  refine .handle opening handsOn ?_ ?_
  · exact fun p hp hother => absurd (hgiven p hp).1 (hother [])
  · intro args w hw
    obtain ⟨hcall, hstocked⟩ := hgiven _ hw
    cases hcall
    exact hstocked.tower []

/-- The book that is lent returns itself, and comes out as the desk. -/
theorem library_keeps_book :
    outcomeOf (callHandle (World.host 1) desk lend [] ⟨library, []⟩) = .ok (.ok (.object (.handle desk))) ∧
      outcomeOf (callThrough (World.host 0) 0 .unit lend [] ⟨library, []⟩) ≠
        .ok (.ok (.object (.bean book))) ∧
      outcomeOf (callHandle (World.host 1) desk lend [] ⟨library, []⟩) ≠
        .ok (.ok (.object (.handle shelf))) := by
  obtain ⟨htower, hthrough, hhandle⟩ := self_return_never_leaks
  refine ⟨htower lend 1 1 desk [] _ library_tower, ?_, ?_⟩
  · exact hthrough _ 0 shelfConfiguration .unit lend [] _ _ (.bean book) rfl rfl nofun
  · exact hhandle _ desk ⟨⟨none, ["Shelf"]⟩, 1, none⟩ deskConfiguration lend [] _ _ (.handle shelf) rfl rfl
      rfl (by decide)

end Deed
end Weaving
