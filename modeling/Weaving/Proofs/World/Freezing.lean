import Weaving.Proofs.World.Following
import Weaving.Proofs.World.Refusal

/-! Proxies that are frozen for a while. A proxy that is frozen keeps its advisors, yet each call that
begins meanwhile counts the version of the registry as seen. So a change of the registry during that time
is taken over later if no call has begun in between, and is passed over otherwise, until the next change. -/
namespace Weaving

namespace Follower

open Deed

/-- How far a proxy has come with the changes of the registry. -/
inductive Progress
  | current
  /-- There has been a change since the last call began. -/
  | pending
  /-- The first call since the last change began while the proxy was frozen. -/
  | passed
  deriving DecidableEq

/-- Whether a proxy is frozen, how far it has come, and the advisors that it took over last. -/
structure Standing where
  frozen : Bool
  progress : Progress
  held : List Advisor

/-- What becomes of a proxy when a call begins. -/
def Standing.begun (st : Standing) (eligible : List Advisor) : Standing :=
  match st.progress, st.frozen with
  | .pending, false => ⟨false, .current, eligible⟩
  | .pending, true => { st with progress := .passed }
  | .current, _ | .passed, _ => st

/-- A proxy that is not frozen has what is eligible once a call begins, unless that has been passed over. -/
theorem Standing.begun_thawed {st : Standing} {eligible : List Advisor} (thawed : st.frozen = false)
    (progress : st.progress ≠ .passed) (current : st.progress = .current → st.held = eligible) :
    (st.begun eligible).held = eligible := by
  obtain ⟨frozen, _ | _ | _, held⟩ := st
  · exact current rfl
  · cases thawed
    rfl
  · exact absurd rfl progress

theorem Standing.begun_kept {st : Standing} (eligible : List Advisor)
    (h : st.frozen = true ∨ st.progress = .passed) : (st.begun eligible).held = st.held := by
  obtain ⟨frozen, _ | _ | _, held⟩ := st
  · rfl
  · have hfrozen : frozen = true := by simpa using h
    subst hfrozen
    rfl
  · rfl

/-- The configuration of the proxy would not refuse the advisors that are eligible. -/
def Accepting (f : Follower) (w : World) : Prop :=
  ∀ c, w.configurations[f.configuration]? = some c → c.advised.config.frozen = false →
    ∃ e, Advised.replaceAdvisors (f.eligible w) ⟨c.advised, w.asked, []⟩ = .ok () e

/-- The chain for a method that the proxy has for some advisors. -/
def chainOf (f : Follower) (as : List Advisor) (m : Method) : Except Fault Chain :=
  (Chain.resolve f.adapters as m (some f.beanClass)).1.map Resolution.chain

/-- All that the proxy depends on is the same in two worlds. -/
structure Same (f : Follower) (w w' : World) : Prop where
  handle : w'.handles[f.serial]? = w.handles[f.serial]?
  configuration : w'.configurations[f.configuration]? = w.configurations[f.configuration]?
  source : w'.sources[f.source]? = w.sources[f.source]?
  registry : w'.registry = w.registry

/-- What happens to a proxy from a scene on. The registry changes, which raises its version, the proxy is
frozen or not frozen any more, calls on it begin by taking over advisors and looking up their chains, and
anything else happens, such as what comes of these calls. Calls that begin within others begin in between. -/
inductive History (f : Follower) (start : Scene) (st₀ : Standing) : Scene → Standing → Prop
  | start : History f start st₀ start st₀
  | changed {s : Scene} {st : Standing} (h : History f start st₀ s st) {r : Registry}
      (newer : s.world.registry.version < r.version) :
      History f start st₀ ⟨{ s.world with registry := r }, s.journal⟩ { st with progress := .pending }
  | froze {s t : Scene} {st : Standing} (h : History f start st₀ s st) {b : Bool}
      (done : edit f.configuration (Advised.modify fun d => d.freeze b) s = .ok (.ok ()) t) :
      History f start st₀ t { st with frozen := b }
  | begun {s t : Scene} {st : Standing} (h : History f start st₀ s st) (accepting : f.Accepting s.world)
      {m : Method} {chain : Except Fault Chain}
      (done : (refresh f.serial >>= fun _ =>
        edit f.configuration (Advised.chainFor true m (some f.beanClass))) s = .ok chain t) :
      History f start st₀ t (st.begun (f.eligible s.world))
  | elsewhere {s t : Scene} {st : Standing} (h : History f start st₀ s st)
      (same : f.Same s.world t.world) : History f start st₀ t st

/-- A world has the proxy, up to a version of the registry, with a configuration in its standing. -/
structure Stands (f : Follower) (w : World) (seen : Nat) (d : Advised) (st : Standing) : Prop where
  handle : w.handles[f.serial]? = some (f.handle seen)
  configuration : w.configurations[f.configuration]? = some (f.configured d)
  source : w.sources[f.source]? = some (.singleton f.target (some f.beanClass))
  adapters : d.adapters = f.adapters
  coherent : d.Coherent fun _ => f.beanClass
  frozen : d.config.frozen = st.frozen
  held : d.advisors = st.held
  notLater : seen ≤ w.registry.version
  pending : seen = w.registry.version ↔ st.progress ≠ .pending
  current : st.progress = .current → st.held = f.eligible w

variable {f : Follower} {w : World} {s t : Scene} {seen : Nat} {d : Advised} {st : Standing}

namespace Stands

theorem changed (h : f.Stands w seen d st) {r : Registry} (newer : w.registry.version < r.version) :
    f.Stands { w with registry := r } seen d { st with progress := .pending } := by
  have hseen := h.notLater
  refine ⟨h.handle, h.configuration, h.source, h.adapters, h.coherent, h.frozen, h.held, ?_, ?_, ?_⟩
  · change seen ≤ r.version
    omega
  · change seen = r.version ↔ _
    refine iff_of_false ?_ (by simp)
    omega
  · intro hp
    contradiction

theorem elsewhere {w' : World} (h : f.Stands w seen d st) (same : f.Same w w') :
    f.Stands w' seen d st := by
  have heligible : f.eligible w' = f.eligible w := by
    simp only [Follower.eligible, World.eligible, World.candidates, same.registry]
  refine ⟨same.handle.trans h.handle, same.configuration.trans h.configuration,
    same.source.trans h.source, h.adapters, h.coherent, h.frozen, h.held, ?_, ?_, ?_⟩
  · rw [same.registry]
    exact h.notLater
  · rw [same.registry]
    exact h.pending
  · rw [heligible]
    exact h.current

/-- Its own configuration is replaced by another. -/
theorem setOwn (h : f.Stands w seen d st) (d' : Advised) (st' : Standing)
    (adapters : d'.adapters = f.adapters) (coherent : d'.Coherent fun _ => f.beanClass)
    (frozen : d'.config.frozen = st'.frozen) (held : d'.advisors = st'.held)
    (progress : st'.progress = st.progress) (current : st.progress = .current → st'.held = st.held)
    (asked : Asked) :
    f.Stands { w with
      configurations := w.configurations.set f.configuration (f.configured d'), asked } seen d' st' := by
  refine ⟨h.handle, ?_, h.source, adapters, coherent, frozen, held, h.notLater, ?_, ?_⟩
  · obtain ⟨hlt, -⟩ := List.getElem?_eq_some_iff.mp h.configuration
    exact List.getElem?_set_self hlt
  · rw [progress]
    exact h.pending
  · intro hp
    rw [progress] at hp
    rw [current hp]
    exact h.current hp

/-- The proxy notes that it has seen the version of the registry, which ends what was pending. -/
theorem setSeen (h : f.Stands w seen d st) (st' : Standing) (frozen : st'.frozen = st.frozen)
    (held : st'.held = st.held) (progress : st'.progress ≠ .pending)
    (current : st'.progress = .current → st.held = f.eligible w) :
    f.Stands { w with handles := w.handles.set f.serial (f.handle w.registry.version) }
      w.registry.version d st' := by
  obtain ⟨hlt, -⟩ := List.getElem?_eq_some_iff.mp h.handle
  refine ⟨List.getElem?_set_self hlt, h.configuration, h.source, h.adapters, h.coherent,
    h.frozen.trans frozen.symm, h.held.trans held.symm, Nat.le_refl _, iff_of_true rfl progress, ?_⟩
  rw [held]
  exact current

theorem froze {b : Bool} (h : f.Stands s.world seen d st)
    (done : edit f.configuration (Advised.modify fun d => d.freeze b) s = .ok (.ok ()) t) :
    f.Stands t.world seen (d.freeze b) { st with frozen := b } := by
  rw [edit_eq _ h.configuration] at done
  cases done
  exact h.setOwn (d.freeze b) { st with frozen := b } h.adapters
    h.coherent rfl h.held rfl (fun _ => rfl) _

/-- A proxy that is not frozen takes over what is eligible when a call begins after a change. -/
theorem refresh_thawed (h : f.Stands s.world seen d st) (accepting : f.Accepting s.world)
    (progress : st.progress = .pending) (thawed : st.frozen = false) :
    ∃ u d', refresh f.serial s = .ok () u ∧
      f.Stands u.world s.world.registry.version d' ⟨false, .current, f.eligible s.world⟩ := by
  have hv : s.world.registry.version ≠ seen := fun hv => h.pending.mp hv.symm progress
  have hfrozen : d.config.frozen = false := h.frozen.trans thawed
  obtain ⟨e, he⟩ := accepting _ h.configuration hfrozen
  obtain ⟨asked, rfl⟩ := Advised.replaceAdvisors_sets he
  have htake := takeOver_accepted (f := f.following seen) h.configuration hfrozen he
  have hown := h.setOwn
    ((d.addInterfaces ((f.eligible s.world).flatMap Advised.introduced)).setAdvisors
      (f.eligible s.world))
    { st with held := f.eligible s.world } h.adapters
    (Advised.coherent_setAdvisors _ _) h.frozen rfl rfl
    (fun hp => absurd (progress.symm.trans hp) (by simp)) asked
  have hseen := hown.setSeen ⟨false, .current, f.eligible s.world⟩ thawed.symm rfl (by simp)
    fun _ => rfl
  exact ⟨_, _, (refresh_changed h.handle rfl hv).trans (bind_of_ok htake), hseen⟩

/-- A proxy that is frozen passes the changes over when a call begins. -/
theorem refresh_frozen (h : f.Stands s.world seen d st) (progress : st.progress = .pending)
    (frozen : st.frozen = true) : ∃ u, refresh f.serial s = .ok () u ∧
      f.Stands u.world u.world.registry.version d { st with progress := .passed } := by
  have hv : s.world.registry.version ≠ seen := fun hv => h.pending.mp hv.symm progress
  have htake := takeOver_frozen (f := f.following seen) h.configuration (h.frozen.trans frozen)
  refine ⟨_, (refresh_changed h.handle rfl hv).trans (bind_of_ok htake), ?_⟩
  exact h.setSeen { st with progress := .passed } rfl rfl (by simp) (by simp)

/-- What becomes of a proxy when a call begins. -/
theorem refresh (h : f.Stands s.world seen d st) (accepting : f.Accepting s.world) :
    ∃ u seen' d', Deed.refresh f.serial s = .ok () u ∧
      f.Stands u.world seen' d' (st.begun (f.eligible s.world)) := by
  by_cases hp : st.progress = .pending
  · obtain ⟨frozen, progress, held⟩ := st
    subst hp
    cases frozen with
    | false =>
      obtain ⟨u, d', hu, h'⟩ := h.refresh_thawed accepting rfl rfl
      exact ⟨u, _, d', hu, h'⟩
    | true =>
      obtain ⟨u, hu, h'⟩ := h.refresh_frozen rfl rfl
      exact ⟨u, _, d, hu, h'⟩
  · have hbegun : st.begun (f.eligible s.world) = st := by
      obtain ⟨frozen, _ | _ | _, held⟩ := st <;> first | rfl | exact absurd rfl hp
    rw [hbegun]
    refine ⟨s, seen, d, refresh_unchanged fun x g hx hg => ?_, h⟩
    rw [h.handle] at hx
    cases hx
    cases hg
    exact (h.pending.mpr hp).symm

/-- Looking up a chain changes nothing but the chains that are kept. -/
theorem lookup (h : f.Stands s.world seen d st) (m : Method) :
    ∃ r t d', edit f.configuration (Advised.chainFor true m (some f.beanClass)) s = .ok r t ∧
      f.Stands t.world seen d' st := by
  obtain ⟨cache, journal, hedit, hcoherent⟩ := edit_lookup h.configuration h.coherent m
  exact ⟨_, _, _, hedit, h.setOwn { d with cache } st h.adapters hcoherent h.frozen h.held rfl
    (fun _ => rfl) _⟩

theorem begun {m : Method} {chain : Except Fault Chain} (h : f.Stands s.world seen d st)
    (accepting : f.Accepting s.world) (done : (Deed.refresh f.serial >>= fun _ =>
      edit f.configuration (Advised.chainFor true m (some f.beanClass))) s = .ok chain t) :
    ∃ seen' d', f.Stands t.world seen' d' (st.begun (f.eligible s.world)) := by
  obtain ⟨u, seen', d', hrefresh, hu⟩ := h.refresh accepting
  obtain ⟨r, t', d'', hedit, ht⟩ := hu.lookup m
  rw [bind_of_ok hrefresh, hedit] at done
  cases done
  exact ⟨seen', d'', ht⟩

/-- The configuration gives the chain for its advisors. -/
theorem chainNow_eq (h : f.Stands w seen d st) (m : Method) :
    d.chainNow m (some f.beanClass) = f.chainOf st.held m := by
  rw [chainOf, ← h.adapters, ← h.held]
  exact Traffic.chainNow_eq h.coherent (Request.agrees_class true m f.beanClass)

/-- A call runs along the chain for the advisors that the proxy has once the call has begun. -/
theorem callHandle_eq (h : f.Stands s.world seen d st) (accepting : f.Accepting s.world)
    {o : ObjectRef} (ho : o.serial = f.serial) (host : Host World) {m : Method}
    (hm : f.plan.exposes m = true) (args : List Value) :
    callHandle host o m args s = (Deed.refresh f.serial >>= fun _ =>
      callThroughAlong host f.configuration (.object (.handle o)) m args
        (f.chainOf (st.begun (f.eligible s.world)).held m)) s := by
  obtain ⟨u, seen', d', hrefresh, hu⟩ := h.refresh accepting
  have hhandle : s.world.handles[o.serial]? = some (f.handle seen) := by rw [ho, h.handle]
  have hsource : (u.world.sourceOf (f.configured d')).targetClass = some f.beanClass := by
    rw [World.sourceOf, World.source, List.getD_eq_getElem?_getD, configured_source, hu.source]
    rfl
  rw [Deed.callHandle_eq hhandle hm (by rw [ho]; exact hrefresh), bind_of_ok hrefresh]
  change callThrough host f.configuration _ m args u = _
  rw [callThrough_eq hu.configuration (configured_resolver f d'), hsource, configured_advised,
    hu.chainNow_eq]

end Stands

/-- Through all that happens the proxy stands as it should. -/
theorem History.stands {start : Scene} {st₀ : Standing} {version : Nat} {d₀ : Advised}
    (h : History f start st₀ s st) (hstart : f.Stands start.world version d₀ st₀) :
    ∃ seen d, f.Stands s.world seen d st := by
  induction h with
  | start => exact ⟨_, _, hstart⟩
  | changed _ newer ih =>
    obtain ⟨seen, d, h⟩ := ih
    exact ⟨seen, d, h.changed newer⟩
  | froze _ done ih =>
    obtain ⟨seen, d, h⟩ := ih
    exact ⟨seen, _, h.froze done⟩
  | begun _ accepting done ih =>
    obtain ⟨seen, d, h⟩ := ih
    exact h.begun accepting done
  | elsewhere _ same ih =>
    obtain ⟨seen, d, h⟩ := ih
    exact ⟨seen, d, h.elsewhere same⟩

/-- Nothing is refused where nothing is eligible. -/
theorem accepting_of_nil (h : f.eligible w = []) : f.Accepting w := by
  intro c _ thawed
  rw [h]
  have hvalid : ∀ a ∈ ([] : List Advisor), Advised.AlwaysValid a := fun a ha => by contradiction
  obtain ⟨asked, he⟩ := Advised.replaceAdvisors_ok hvalid (e := ⟨c.advised, w.asked, []⟩) thawed
  exact ⟨_, he⟩

end Follower

namespace Creator

open Deed Follower

/-- Calls on a proxy that is frozen for a while. Wrap a bean, with advisors from the registry and a
configuration that is frozen or not; let the registry change, the configuration be frozen and not frozen
any more, and calls begin, in any order and at any depth, without a refresh being refused. A call then made
while the configuration is not frozen runs along the chain for the advisors that are eligible now, unless
the first call since the registry last changed began while it was frozen. In that case, and while it is
frozen, a call runs along the chain for the advisors that the proxy took over last. -/
theorem calls_around_freezes {c : Creator} {bean : Target} {name : String} {beanClass : Class}
    {s s' : Scene} {o : ObjectRef} (feed : c.feed = .registry)
    (made : ∀ plan, c.generate plan ≠ .ok (.value (.object (.handle o))))
    (wrapped : c.wrap bean name beanClass s = .ok (.ok (.proxied (.object (.handle o)))) s') :
    ∃ plan, let f := c.follower bean name beanClass s.world plan
      s'.world.handles[o.serial]? = some (f.handle s'.world.registry.version) ∧
      ∀ t st, f.History s' ⟨c.config.frozen, .current, f.eligible s'.world⟩ t st →
        f.Accepting t.world → ∀ (host : Host World) m args, plan.exposes m = true →
          let along := fun as => (refresh o.serial >>= fun _ => callThroughAlong host f.configuration
            (.object (.handle o)) m args (f.chainOf as m)) t
          (st.frozen = false → st.progress ≠ .passed →
            callHandle host o m args t = along (f.eligible t.world)) ∧
          (st.frozen = true ∨ st.progress = .passed → callHandle host o m args t = along st.held) := by
  obtain ⟨ho, plan, d, hmade⟩ := made_of_wrap feed made wrapped
  let f := c.follower bean name beanClass s.world plan
  have hhandle : s'.world.handles[o.serial]? = some (f.handle s'.world.registry.version) := by
    rw [hmade.handles, ho]
    exact List.getElem?_concat_length
  have hserial : o.serial = f.serial := ho
  have hstart : f.Stands s'.world s'.world.registry.version d
      ⟨c.config.frozen, .current, f.eligible s'.world⟩ := by
    refine ⟨by rw [← hserial]; exact hhandle, hmade.configuration, hmade.source, hmade.adapters,
      hmade.coherent, hmade.frozen, hmade.held, Nat.le_refl _, ?_, fun _ => rfl⟩
    exact iff_of_true rfl (by simp)
  refine ⟨plan, hhandle, fun t st history accepting host m args hm => ?_⟩
  obtain ⟨seen, d', h⟩ := history.stands hstart
  have hcall := h.callHandle_eq accepting hserial host hm args
  refine ⟨fun thawed progress => ?_, fun kept => ?_⟩
  · rw [hcall, hserial, Standing.begun_thawed thawed progress h.current]
  · rw [hcall, hserial, Standing.begun_kept _ kept]

def serve : Method := ⟨"Service", "serve", []⟩

def service : ObjectRef := ⟨0, "service"⟩

/-- The service is wrapped while one advisor is registered. -/
def wrapping : EStateM.Result Abort Scene (Except Fault Processed) :=
  serviceCreator.wrap (.bean service) "service" serviceClass registered

def beginning : Deed (Except Fault Chain) := do
  refresh 0
  edit 0 (Advised.chainFor true serve (some serviceClass))

/-- Its proxy is frozen, and the registry is cleared. -/
def clearedMeanwhile : Scene :=
  let s := stateOf (edit 0 (Advised.modify fun d => d.freeze true) (stateOf wrapping))
  ⟨{ s.world with registry := s.world.registry.clear }, s.journal⟩

/-- A call begins, and after that the proxy is frozen no more. -/
def thawedAfterwards : Scene :=
  stateOf (edit 0 (Advised.modify fun d => d.freeze false) (stateOf (beginning clearedMeanwhile)))

theorem service_wrapped :
    wrapping = .ok (.ok (.proxied (.object (.handle service)))) (stateOf wrapping) :=
  eq_ok_of_outcomeOf (by decide +kernel)

def servicePlan : Plan := ⟨none, ["Service", advisedInterface]⟩

/-- The proxy of the service. -/
def serviceProxy : Follower :=
  serviceCreator.follower (.bean service) "service" serviceClass registered.world servicePlan

theorem eligible_wrapped :
    serviceProxy.eligible (stateOf wrapping).world = [.always (.around Traffic.bystander)] := by
  obtain ⟨-, plan, d, hmade⟩ := made_of_wrap (c := serviceCreator) (o := service) rfl
    (fun plan hplan => by cases hplan) service_wrapped
  have hsorted : registered.world.eligible .registry "service" serviceClass =
      ⟨[.always (.around Traffic.bystander)], 0⟩ := topologicalSort_singleton _ _
  rw [Follower.eligible, World.eligible, World.candidates, hmade.registry]
  exact congrArg Sorted.items hsorted

theorem eligible_cleared : serviceProxy.eligible clearedMeanwhile.world = [] :=
  List.isEmpty_iff.mp (by decide +kernel)

theorem eligible_thawed : serviceProxy.eligible thawedAfterwards.world = [] :=
  List.isEmpty_iff.mp (by decide +kernel)

/-- The call begins after the change and before the proxy is thawed, so that the change is passed over. -/
theorem service_history : serviceProxy.History (stateOf wrapping)
    ⟨false, .current, serviceProxy.eligible (stateOf wrapping).world⟩ thawedAfterwards
    ⟨false, .passed, serviceProxy.eligible (stateOf wrapping).world⟩ := by
  have hfroze : edit 0 (Advised.modify fun d => d.freeze true) (stateOf wrapping) = .ok (.ok ()) _ :=
    eq_ok_of_outcomeOf (by decide +kernel)
  obtain ⟨chain, hbegun⟩ := exists_of_isOk (r := beginning clearedMeanwhile) (by decide +kernel)
  have hthawed : edit 0 (Advised.modify fun d => d.freeze false)
      (stateOf (beginning clearedMeanwhile)) = .ok (.ok ()) _ :=
    eq_ok_of_outcomeOf (by decide +kernel)
  have hcleared : serviceProxy.History (stateOf wrapping)
      ⟨false, .current, serviceProxy.eligible (stateOf wrapping).world⟩ clearedMeanwhile
      ⟨true, .pending, serviceProxy.eligible (stateOf wrapping).world⟩ :=
    .changed (.froze .start hfroze) (Nat.lt_succ_self _)
  exact .froze (.begun hcleared (accepting_of_nil eligible_cleared) hbegun) hthawed

/-- The service, which is not frozen any more, is called along the chain of the advisor that it took over
last, though that is not in the registry any more. -/
theorem service_keeps_bystander :
    serviceProxy.eligible thawedAfterwards.world = [] ∧
      ∀ host args, callHandle host service serve args thawedAfterwards =
        (refresh 0 >>= fun _ => callThroughAlong host 0 (.object (.handle service)) serve args
          (serviceProxy.chainOf [.always (.around Traffic.bystander)] serve)) thawedAfterwards := by
  refine ⟨eligible_thawed, fun host args => ?_⟩
  obtain ⟨plan, hhandle, hcalls⟩ := calls_around_freezes (c := serviceCreator) (o := service) rfl
    (fun plan hplan => by cases hplan) service_wrapped
  have hplan : (stateOf wrapping).world.handles[service.serial]?.map (·.plan) = some servicePlan := by
    decide +kernel
  rw [hhandle] at hplan
  obtain rfl : plan = servicePlan := Option.some.inj hplan
  have hcall := (hcalls _ _ service_history (accepting_of_nil eligible_thawed) host serve args rfl).2
    (.inr rfl)
  rw [← eligible_wrapped]
  exact hcall

/-- The change of the registry is lost: the call comes out otherwise than along the chain for the advisors
that are eligible when it is made. -/
theorem change_lost : ¬∀ t st, serviceProxy.History (stateOf wrapping)
      ⟨false, .current, serviceProxy.eligible (stateOf wrapping).world⟩ t st →
    st.frozen = false → serviceProxy.Accepting t.world → ∀ host args,
      callHandle host service serve args t =
        (refresh 0 >>= fun _ => callThroughAlong host 0 (.object (.handle service)) serve args
          (serviceProxy.chainOf (serviceProxy.eligible t.world) serve)) t := by
  intro h
  have hcall := congrArg outcomeOf
    (h _ _ service_history rfl (accepting_of_nil eligible_thawed) (World.host 1) [])
  exact absurd hcall (by decide +kernel)

end Creator
end Weaving
