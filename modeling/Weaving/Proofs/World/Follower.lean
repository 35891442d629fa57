import Weaving.Proofs.Proxy.Interleaving
import Weaving.Proofs.World.Deeds

/-! A proxy that follows the registry for a bean, and what holds of it in every world: no other handle
shares its configuration, the chains it keeps are right for its advisors, and these are the eligible ones
if it has seen the version of the registry. Whatever is done in the world preserves this. -/
namespace Weaving

/-- An introduction for the class is valid whenever it is asked, if the advisor is one. -/
def Advisor.Steadfast (c : Class) (a : Advisor) : Prop :=
  ∀ i, a.introduction? = some i → i.classFilter.accepts c = true →
    ∀ asked, ∃ asked', i.validate asked = .ok () asked'

/-- If an aspect covers the bean, its advisors are steadfast. -/
def Aspect.Steadfast (bean : String) (c : Class) (x : Aspect) : Prop :=
  x.coversBean bean = true → ∀ a ∈ x.declared, a.Steadfast c

/-- Every advisor in the registry that may concern the bean is steadfast. -/
structure Registry.Steadfast (bean : String) (c : Class) (r : Registry) : Prop where
  aspects : ∀ x ∈ r.aspects, x.Steadfast bean c
  advisors : ∀ a ∈ r.advisors, a.Steadfast c

/-- So is every advisor that commands can register. -/
structure World.Steadfast (bean : String) (c : Class) (w : World) : Prop where
  registry : w.registry.Steadfast bean c
  aspects : ∀ x ∈ w.aspects, x.Steadfast bean c
  advisors : ∀ a ∈ w.advisors, a.Steadfast c

namespace Registry

variable {bean : String} {c : Class} {r : Registry}

theorem Steadfast.candidates (h : r.Steadfast bean c) {a : Advisor} (ha : a ∈ r.candidates bean) :
    a.Steadfast c := by
  obtain ha | ⟨x, hx, hcovers, b, hb, hrole⟩ := exists_of_mem_candidates ha
  · exact h.advisors a ha
  · have hsteadfast : b.Steadfast c := h.aspects x hx hcovers b hb
    simpa only [Advisor.Steadfast, Advisor.introduction?, hrole] using hsteadfast

theorem Steadfast.register (h : r.Steadfast bean c) {x : Aspect} (hx : x.Steadfast bean c) :
    (r.register x).Steadfast bean c := by
  refine ⟨fun y hy => ?_, h.advisors⟩
  obtain hy | rfl := mem_or_eq_of_mem_register hy
  · exact h.aspects y hy
  · exact hx

theorem Steadfast.registerAdvisor (h : r.Steadfast bean c) {a : Advisor} (ha : a.Steadfast c) :
    (r.registerAdvisor a).Steadfast bean c := by
  refine ⟨h.aspects, fun b hb => ?_⟩
  obtain hb | rfl := mem_or_eq_of_mem_registerAdvisor hb
  · exact h.advisors b hb
  · exact ha

theorem Steadfast.clear : r.clear.Steadfast bean c :=
  ⟨by simp [Registry.clear], by simp [Registry.clear]⟩

theorem Steadfast.unregister (h : r.Steadfast bean c) (name : String) :
    (r.unregister name).2.Steadfast bean c :=
  ⟨fun x hx => h.aspects x (mem_of_mem_unregister hx), by simpa only [advisors_unregister] using h.advisors⟩

/-- A registry after a change, which has raised its version, or is the same as before. -/
def Moved (r r' : Registry) : Prop := r' = r ∨ r.version < r'.version

theorem moved_unregister (name : String) : r.Moved (r.unregister name).2 := by
  unfold Registry.unregister
  split
  · exact .inr (Nat.lt_succ_self _)
  · exact .inl rfl

end Registry

/-- Introductions that can apply to a class accept it. -/
theorem Advisor.mem_of_mem_eligible {as : List Advisor} {c : Class} {a : Advisor}
    (h : a ∈ eligible as c) :
    a ∈ as ∧ ∀ i, a.introduction? = some i → i.classFilter.accepts c = true := by
  obtain h | h := List.mem_append.mp h
  · obtain ⟨ha, hc⟩ := List.mem_filter.mp h
    refine ⟨ha, fun i hi => ?_⟩
    have hrole : a.role = .introduction i := by
      unfold introduction? at hi
      split at hi
      next hr =>
        cases hi
        exact hr
      next => contradiction
    simpa [concerns, hrole] using (Bool.and_eq_true_iff.mp hc).2
  · obtain ⟨ha, hc⟩ := List.mem_filter.mp h
    refine ⟨ha, fun i hi => ?_⟩
    simp [isIntroduction, hi] at hc

/-- A proxy that follows the registry: its handle and configuration, the bean and its source. -/
structure Follower where
  serial : Nat
  plan : Plan
  configuration : Nat
  source : Nat
  target : Target
  bean : String
  beanClass : Class
  adapters : Adapters

namespace Follower

/-- The advisors that a proxy made now for the bean would have. -/
def eligible (f : Follower) (w : World) : List Advisor :=
  (w.eligible .registry f.bean f.beanClass).items

def following (f : Follower) (seen : Nat) : Following := ⟨.registry, f.bean, f.beanClass, seen⟩

def handle (f : Follower) (seen : Nat) : Handle := ⟨f.plan, f.configuration, some (f.following seen)⟩

/-- What its configuration is in the world, with its chains resolved as usual. -/
def configured (f : Follower) (d : Advised) : Configuration := { advised := d, source := f.source }

@[simp] theorem configured_advised (f : Follower) (d : Advised) : (f.configured d).advised = d := rfl

@[simp] theorem configured_source (f : Follower) (d : Advised) : (f.configured d).source = f.source := rfl

@[simp] theorem configured_resolver (f : Follower) (d : Advised) :
    (f.configured d).resolver = Advised.resolve := rfl

/-- A world has the proxy, up to a version of the registry and with a configuration of its own. -/
structure Present (f : Follower) (w : World) (seen : Nat) (d : Advised) : Prop where
  handle : w.handles[f.serial]? = some (f.handle seen)
  alone : ∀ (k : Nat) h, w.handles[k]? = some h → h.configuration = f.configuration → k = f.serial
  configuration : w.configurations[f.configuration]? = some (f.configured d)
  source : w.sources[f.source]? = some (.singleton f.target (some f.beanClass))
  thawed : d.config.frozen = false
  adapters : d.adapters = f.adapters
  coherent : d.Coherent fun _ => f.beanClass
  notLater : seen ≤ w.registry.version
  current : seen = w.registry.version → d.advisors = f.eligible w
  steadfast : w.Steadfast f.bean f.beanClass

/-- What holds of the proxy in every world. -/
def Holds (f : Follower) (w : World) : Prop := ∃ seen d, f.Present w seen d

variable {f : Follower} {w : World} {seen : Nat} {d : Advised}

namespace Present

theorem eligible_valid (h : f.Present w seen d) {a : Advisor} (ha : a ∈ f.eligible w) :
    Advised.AlwaysValid a := by
  obtain ⟨ha, hclass⟩ := Advisor.mem_of_mem_eligible (mem_of_mem_topologicalSort ha)
  exact fun i hi => h.steadfast.registry.candidates ha i hi (hclass i hi)

theorem source_eq (h : f.Present w seen d) :
    w.source f.source = .singleton f.target (some f.beanClass) := by
  rw [World.source, List.getD_eq_getElem?_getD, h.source]
  rfl

theorem setSource_eq (h : f.Present w seen d) :
    w.setSource f.source (.singleton f.target (some f.beanClass)) = w := by
  obtain ⟨hlt, hs⟩ := List.getElem?_eq_some_iff.mp h.source
  rw [World.setSource, ← hs, List.set_getElem_self]

/-- Beans and clocks are nothing to the proxy. -/
theorem answered (h : f.Present w seen d) (called : ObjectRef → List Method) (clock : Nat) :
    f.Present { w with called, clock } seen d :=
  ⟨h.handle, h.alone, h.configuration, h.source, h.thawed, h.adapters, h.coherent, h.notLater, h.current,
    ⟨h.steadfast.registry, h.steadfast.aspects, h.steadfast.advisors⟩⟩

theorem setSource (h : f.Present w seen d) {n : Nat} {x : Source}
    (hx : n = f.source → x = .singleton f.target (some f.beanClass)) :
    f.Present (w.setSource n x) seen d := by
  refine ⟨h.handle, h.alone, h.configuration, ?_, h.thawed, h.adapters, h.coherent, h.notLater, h.current,
    ⟨h.steadfast.registry, h.steadfast.aspects, h.steadfast.advisors⟩⟩
  change (w.sources.set n x)[f.source]? = _
  by_cases hn : n = f.source
  · subst hn
    obtain ⟨hlt, -⟩ := List.getElem?_eq_some_iff.mp h.source
    rw [List.getElem?_set_self hlt, hx rfl]
  · rw [List.getElem?_set_ne hn, h.source]

theorem setConfiguration (h : f.Present w seen d) {n : Nat} (hn : n ≠ f.configuration)
    (c : Configuration) (asked : Asked) :
    f.Present { w with configurations := w.configurations.set n c, asked } seen d := by
  refine ⟨h.handle, h.alone, ?_, h.source, h.thawed, h.adapters, h.coherent, h.notLater, h.current,
    ⟨h.steadfast.registry, h.steadfast.aspects, h.steadfast.advisors⟩⟩
  change (w.configurations.set n c)[f.configuration]? = _
  rw [List.getElem?_set_ne hn, h.configuration]

theorem setHandle (h : f.Present w seen d) {k : Nat} (hk : k ≠ f.serial) {x : Handle}
    (hx : x.configuration ≠ f.configuration) :
    f.Present { w with handles := w.handles.set k x } seen d := by
  refine ⟨?_, fun j y hy hc => ?_, h.configuration, h.source, h.thawed, h.adapters, h.coherent, h.notLater,
    h.current, ⟨h.steadfast.registry, h.steadfast.aspects, h.steadfast.advisors⟩⟩
  · change (w.handles.set k x)[f.serial]? = _
    rw [List.getElem?_set_ne hk, h.handle]
  · change (w.handles.set k x)[j]? = some y at hy
    rw [List.getElem?_set] at hy
    split at hy
    · obtain ⟨-, hy⟩ := Option.ite_none_right_eq_some.mp hy
      cases hy
      exact absurd hc hx
    · exact h.alone j y hy hc

/-- A change of the registry outdates what the proxy has seen. -/
theorem setRegistry (h : f.Present w seen d) {r : Registry} (hr : w.registry.Moved r)
    (steadfast : r.Steadfast f.bean f.beanClass) : f.Present { w with registry := r } seen d := by
  obtain rfl | hr := hr
  · exact h
  · have hseen := h.notLater
    refine ⟨h.handle, h.alone, h.configuration, h.source, h.thawed, h.adapters, h.coherent, ?_, ?_,
      ⟨steadfast, h.steadfast.aspects, h.steadfast.advisors⟩⟩
    · change seen ≤ r.version
      omega
    · intro hs
      change seen = r.version at hs
      omega

/-- Its own configuration may change if the advisors stay, and the chains stay right. -/
theorem setOwn (h : f.Present w seen d) (d' : Advised) (thawed : d'.config.frozen = false)
    (adapters : d'.adapters = f.adapters) (coherent : d'.Coherent fun _ => f.beanClass)
    (current : seen = w.registry.version → d'.advisors = f.eligible w) (asked : Asked) :
    f.Present { w with
      configurations := w.configurations.set f.configuration (f.configured d'), asked } seen d' := by
  refine ⟨h.handle, h.alone, ?_, h.source, thawed, adapters, coherent, h.notLater, current,
    ⟨h.steadfast.registry, h.steadfast.aspects, h.steadfast.advisors⟩⟩
  obtain ⟨hlt, -⟩ := List.getElem?_eq_some_iff.mp h.configuration
  exact List.getElem?_set_self hlt

/-- The proxy may note that it has seen the version of the registry once its advisors are eligible. -/
theorem setSeen (h : f.Present w seen d) (current : d.advisors = f.eligible w) :
    f.Present { w with handles := w.handles.set f.serial (f.handle w.registry.version) }
      w.registry.version d := by
  obtain ⟨hlt, -⟩ := List.getElem?_eq_some_iff.mp h.handle
  refine ⟨List.getElem?_set_self hlt, fun k x hk hc => ?_, h.configuration, h.source, h.thawed,
    h.adapters, h.coherent, Nat.le_refl _, fun _ => current,
    ⟨h.steadfast.registry, h.steadfast.aspects, h.steadfast.advisors⟩⟩
  change (w.handles.set f.serial _)[k]? = some x at hk
  by_cases hkf : k = f.serial
  · exact hkf
  · rw [List.getElem?_set_ne (Ne.symm hkf)] at hk
    exact h.alone k x hk hc

end Present
end Follower
end Weaving
