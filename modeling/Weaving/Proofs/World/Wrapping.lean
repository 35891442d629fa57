import Weaving.Proofs.World.Follower
import Weaving.World.Creator

/-! What wrapping a bean makes: a new handle with a new configuration and a new source, which holds the
advisors that were eligible and has seen the version of the registry. -/
namespace Weaving

namespace Creator

/-- The part of configuring that follows the interfaces. -/
def settle (c : Creator) (beanClass : Class) (as : List Advisor) : Edit Plan := do
  Advised.addAdvisors as
  Advised.modify fun d => d.freeze c.config.frozen
  match Plan.choose (← get).advised (some beanClass) with
  | .ok plan => return plan
  | .error f => throw f

theorem configure_eq (c : Creator) (beanClass : Class) (as : List Advisor) :
    c.configure beanClass as =
      if c.config.proxyTargetClass then c.settle beanClass as
      else Advised.modify (fun d => d.addInterfaces beanClass.allInterfaces) >>= fun _ =>
        c.settle beanClass as := by
  rfl

theorem settle_extends {c : Creator} {beanClass : Class} {as : List Advisor} {e e' : Editing}
    {plan : Plan} (h : c.settle beanClass as e = .ok plan e') :
    ∃ d, Advised.Extended e.advised as d ∧ e'.advised = d.freeze c.config.frozen := by
  obtain ⟨u, e₁, hadd, h⟩ := exists_of_bind_ok h
  refine ⟨e₁.advised, Advised.addAdvisors_extends hadd, ?_⟩
  change (match Plan.choose (e₁.advised.freeze c.config.frozen) (some beanClass) with
    | .ok plan => pure plan
    | .error f => throw f : Edit Plan) { e₁ with advised := e₁.advised.freeze c.config.frozen } = _ at h
  cases hplan : Plan.choose (e₁.advised.freeze c.config.frozen) (some beanClass) with
  | ok p =>
    rw [hplan] at h
    cases h
    rfl
  | error f =>
    rw [hplan] at h
    contradiction

/-- Configuring adds the advisors, and freezes the configuration if that is asked for. -/
theorem configure_extends {c : Creator} {beanClass : Class} {as : List Advisor} {e e' : Editing}
    {plan : Plan} (h : c.configure beanClass as e = .ok plan e') :
    ∃ d, Advised.Extended e.advised as d ∧ e'.advised = d.freeze c.config.frozen := by
  rw [configure_eq] at h
  split at h
  · exact settle_extends h
  · obtain ⟨u, e₁, hmodify, h⟩ := exists_of_bind_ok h
    cases hmodify
    obtain ⟨d, hd, he⟩ := settle_extends h
    exact ⟨d, ⟨hd.advisors, hd.config, hd.adapters, hd.cache⟩, he⟩

/-- The proxy that wrapping a bean makes in a world. -/
def follower (c : Creator) (bean : Target) (name : String) (beanClass : Class) (w : World)
    (plan : Plan) : Follower :=
  ⟨w.handles.length, plan, w.configurations.length, w.sources.length, bean, name, beanClass, c.adapters⟩

/-- A configuration before anything is added to it. -/
def blank (c : Creator) : Advised :=
  { config := { c.config with frozen := false }, adapters := c.adapters }

/-- The world in which the proxy of a bean is configured. -/
def prepared (c : Creator) (bean : Target) (beanClass : Class) (w : World) : World :=
  { w with
    sources := w.sources ++ [.singleton bean (some beanClass)]
    configurations := w.configurations ++ [{ advised := c.blank, source := w.sources.length }] }

/-- The proxy of a bean once it is configured, unless it is something other than a handle. -/
def present (c : Creator) (name : String) (beanClass : Class) (version : Nat) (n : Nat)
    (as : List Advisor) : Except Fault Plan → Deed (Except Fault Processed)
  | .error f => return .error f
  | .ok plan => match c.generate plan with
    | .error f => return .error f
    | .ok generated => do
      let v ← realize ⟨plan, n, some ⟨c.feed, name, beanClass, version⟩⟩ name generated
      Deed.journal [.info ("Created AOP proxy for bean '" ++ name ++ "' with " ++
        toString as.length ++ " advisor(s)")]
      return .ok (.proxied v)

theorem makeProxy_eq (c : Creator) (bean : Target) (name : String) (beanClass : Class)
    (version : Nat) (as : List Advisor) (s : Scene) :
    c.makeProxy bean name beanClass version as s =
      (Deed.edit s.world.configurations.length (c.configure beanClass as) >>=
        c.present name beanClass version s.world.configurations.length as)
        ⟨c.prepared bean beanClass s.world, s.journal⟩ := by
  refine congrArg (fun k => (Deed.edit s.world.configurations.length _ >>= k) _) (funext fun r => ?_)
  cases r with
  | error f => rfl
  | ok plan => rfl

/-- A new handle is the only thing that the configured proxy can be shown by. -/
theorem handle_of_present {c : Creator} {name : String} {beanClass : Class} {version n : Nat}
    {as : List Advisor} {r : Except Fault Plan} {s s' : Scene} {o : ObjectRef}
    (made : ∀ plan, c.generate plan ≠ .ok (.value (.object (.handle o))))
    (h : c.present name beanClass version n as r s =
      .ok (.ok (.proxied (.object (.handle o)))) s') :
    ∃ plan, r = .ok plan ∧ o.serial = s.world.handles.length ∧
      s'.world = { s.world with
        handles := s.world.handles ++ [⟨plan, n, some ⟨c.feed, name, beanClass, version⟩⟩] } := by
  cases r with
  | error f =>
    cases h
  | ok plan =>
    unfold present at h
    cases hg : c.generate plan with
    | error f =>
      simp only [hg] at h
      cases h
    | ok generated =>
      simp only [hg] at h
      cases generated with
      | handle =>
        cases h
        exact ⟨plan, rfl, rfl, rfl⟩
      | value v =>
        cases h
        exact absurd hg (made plan)

/-- A bean becomes proxied by a proxy with the advisors eligible for it. -/
theorem makeProxy_of_wrap {c : Creator} {bean : Target} {name : String} {beanClass : Class}
    {s s' : Scene} {v : Value} (h : c.wrap bean name beanClass s = .ok (.ok (.proxied v)) s') :
    ∃ journal, c.makeProxy bean name beanClass (s.world.version c.feed)
      (s.world.eligible c.feed name beanClass).items ⟨s.world, journal⟩ = .ok (.ok (.proxied v)) s' := by
  unfold wrap at h
  split at h
  · cases h
  · simp only [Deed.world_bind, Deed.journal_bind] at h
    split at h
    · cases h
    · exact ⟨_, h⟩

/-- What has been made in a world when a bean has been wrapped. -/
structure Made (c : Creator) (f : Follower) (w w' : World) (d : Advised) : Prop where
  handles : w'.handles = w.handles ++ [f.handle w'.registry.version]
  configuration : w'.configurations[f.configuration]? = some (f.configured d)
  source : w'.sources[f.source]? = some (.singleton f.target (some f.beanClass))
  frozen : d.config.frozen = c.config.frozen
  adapters : d.adapters = f.adapters
  coherent : d.Coherent fun _ => f.beanClass
  held : d.advisors = f.eligible w'
  registry : w'.registry = w.registry
  aspects : w'.aspects = w.aspects
  advisors : w'.advisors = w.advisors

/-- Wrapping a bean makes a proxy that is up to date, and frozen if that is asked for. -/
theorem made_of_wrap {c : Creator} {bean : Target} {name : String} {beanClass : Class}
    {s s' : Scene} {o : ObjectRef} (feed : c.feed = .registry)
    (made : ∀ plan, c.generate plan ≠ .ok (.value (.object (.handle o))))
    (h : c.wrap bean name beanClass s = .ok (.ok (.proxied (.object (.handle o)))) s') :
    o.serial = s.world.handles.length ∧ ∃ plan d,
      c.Made (c.follower bean name beanClass s.world plan) s.world s'.world d := by
  obtain ⟨journal, h⟩ := makeProxy_of_wrap h
  rw [makeProxy_eq] at h
  obtain ⟨r, t, hedit, h⟩ := exists_of_bind_ok h
  obtain ⟨plan, rfl, ho, hworld⟩ := handle_of_present made h
  have hprepared : (c.prepared bean beanClass s.world).configurations[s.world.configurations.length]? =
      some { advised := c.blank, source := s.world.sources.length } := by
    simp [prepared]
  obtain ⟨e, hconfigure, rfl⟩ := Deed.exists_of_edit_ok hprepared hedit
  obtain ⟨d, hd, he⟩ := configure_extends hconfigure
  refine ⟨ho, plan, e.advised, ?_⟩
  rw [hworld, feed]
  refine ⟨rfl, ?_, ?_, ?_, ?_, ?_, ?_, rfl, rfl, rfl⟩
  · change ((s.world.configurations ++ [_]).set s.world.configurations.length _)[
      s.world.configurations.length]? = _
    rw [List.getElem?_set_self (by simp)]
    rfl
  · change (s.world.sources ++ [_])[s.world.sources.length]? = _
    rw [List.getElem?_concat_length]
    rfl
  · rw [he]
    rfl
  · rw [he]
    exact hd.adapters
  · rw [he]
    have hcache : d.cache = [] := hd.cache rfl
    simp [Advised.Coherent, Advised.freeze, hcache]
  · rw [he]
    change d.advisors = _
    rw [hd.advisors, feed]
    rfl

theorem present_of_wrap {c : Creator} {bean : Target} {name : String} {beanClass : Class}
    {s s' : Scene} {o : ObjectRef} (feed : c.feed = .registry) (thawed : c.config.frozen = false)
    (made : ∀ plan, c.generate plan ≠ .ok (.value (.object (.handle o))))
    (backed : ∀ h ∈ s.world.handles, h.configuration < s.world.configurations.length)
    (steadfast : s.world.Steadfast name beanClass)
    (h : c.wrap bean name beanClass s = .ok (.ok (.proxied (.object (.handle o)))) s') :
    o.serial = s.world.handles.length ∧ ∃ plan d,
      (c.follower bean name beanClass s.world plan).Present s'.world s'.world.registry.version d := by
  obtain ⟨ho, plan, d, h⟩ := made_of_wrap feed made h
  refine ⟨ho, plan, d, ?_, fun k x hk hx => ?_, h.configuration, h.source, h.frozen.trans thawed,
    h.adapters, h.coherent, Nat.le_refl _, fun _ => h.held, ?_⟩
  · rw [h.handles]
    exact List.getElem?_concat_length
  · change x.configuration = s.world.configurations.length at hx
    rw [h.handles, List.getElem?_append] at hk
    split at hk
    · have hlt := backed x (List.mem_of_getElem? hk)
      omega
    · have hlt := (List.getElem?_eq_some_iff.mp hk).1
      simp only [List.length_singleton] at hlt
      change k = s.world.handles.length
      omega
  · exact ⟨by rw [h.registry]; exact steadfast.registry, by rw [h.aspects]; exact steadfast.aspects,
      by rw [h.advisors]; exact steadfast.advisors⟩

end Creator
end Weaving
