import Weaving.Proofs.Proxy.Answering
import Weaving.Proofs.World.Follower

/-! Worlds whose matchers answer. If every advisor that a world has or can register answers, and so does
whatever resolves its chains, then whatever is commanded leaves such a world. So no call asks a static
matcher about arguments, at any depth of nesting. -/
namespace Weaving

def Aspect.Answers (x : Aspect) : Prop := ∀ a ∈ x.declared, a.Answers

/-- Every advisor in the registry answers. -/
structure Registry.Answers (r : Registry) : Prop where
  aspects : ∀ x ∈ r.aspects, x.Answers
  advisors : ∀ a ∈ r.advisors, a.Answers

def Feed.Answers : Feed → Prop
  | .registry => True
  | .fixed as => ∀ a ∈ as, a.Answers

/-- A configuration answers, and so does what resolves its chains. -/
structure Configuration.Answers (c : Configuration) : Prop where
  advised : c.advised.Answers
  resolver : c.resolver.Answers

/-- Every advisor answers that is in use, in a registry or a feed, or can be registered by commands, and so
does every configuration. -/
structure World.Answers (w : World) : Prop where
  registry : w.registry.Answers
  aspects : ∀ x ∈ w.aspects, x.Answers
  advisors : ∀ a ∈ w.advisors, a.Answers
  configurations : ∀ c ∈ w.configurations, c.Answers
  feeds : ∀ h ∈ w.handles, ∀ f, h.following = some f → f.feed.Answers

namespace Registry

variable {r : Registry}

theorem Answers.candidates (h : r.Answers) {bean : String} {a : Advisor} (ha : a ∈ r.candidates bean) :
    a.Answers := by
  obtain ha | ⟨x, hx, -, b, hb, hrole⟩ := exists_of_mem_candidates ha
  · exact h.advisors a ha
  · have hanswers : b.Answers := h.aspects x hx b hb
    simpa only [Advisor.Answers, hrole] using hanswers

theorem Answers.register (h : r.Answers) {x : Aspect} (hx : x.Answers) : (r.register x).Answers := by
  refine ⟨fun y hy => ?_, h.advisors⟩
  obtain hy | rfl := mem_or_eq_of_mem_register hy
  · exact h.aspects y hy
  · exact hx

theorem Answers.registerAdvisor (h : r.Answers) {a : Advisor} (ha : a.Answers) :
    (r.registerAdvisor a).Answers := by
  refine ⟨h.aspects, fun b hb => ?_⟩
  obtain hb | rfl := mem_or_eq_of_mem_registerAdvisor hb
  · exact h.advisors b hb
  · exact ha

theorem Answers.unregister (h : r.Answers) (name : String) : (r.unregister name).2.Answers :=
  ⟨fun x hx => h.aspects x (mem_of_mem_unregister hx), by simpa only [advisors_unregister] using h.advisors⟩

theorem Answers.clear : r.clear.Answers := ⟨by simp [Registry.clear], by simp [Registry.clear]⟩

end Registry

namespace World

variable {w : World}

/-- The advisors that a handle takes over from such a feed answer. -/
theorem Answers.eligible (h : w.Answers) {f : Feed} (hf : f.Answers) {bean : String} {c : Class}
    {a : Advisor} (ha : a ∈ (w.eligible f bean c).items) : a.Answers := by
  obtain ⟨ha, -⟩ := Advisor.mem_of_mem_eligible (mem_of_mem_topologicalSort ha)
  cases f with
  | registry => exact h.registry.candidates ha
  | fixed as => exact hf a ha

theorem Answers.setConfiguration (h : w.Answers) (n : Nat) {c : Configuration} (hc : c.Answers)
    (asked : Asked) : { w with configurations := w.configurations.set n c, asked }.Answers := by
  refine ⟨h.registry, h.aspects, h.advisors, fun x hx => ?_, h.feeds⟩
  obtain hx | rfl := List.mem_or_eq_of_mem_set hx
  · exact h.configurations x hx
  · exact hc

theorem Answers.setHandle (h : w.Answers) (n : Nat) {x : Handle}
    (hx : ∀ f, x.following = some f → f.feed.Answers) :
    { w with handles := w.handles.set n x }.Answers := by
  refine ⟨h.registry, h.aspects, h.advisors, h.configurations, fun y hy => ?_⟩
  obtain hy | rfl := List.mem_or_eq_of_mem_set hy
  · exact h.feeds y hy
  · exact hx

end World

namespace Deed

variable {E : Abort → Prop} {α : Type} {host : Host World}

/-- A deed leaves an answering world, and is aborted only as expected. -/
abbrev Safe (E : Abort → Prop) (d : Deed α) : Prop := Confined (Within World.Answers) E d

theorem safe_world : Safe E world := .of_ok fun s hs => ⟨s.world, s, rfl, hs⟩

theorem safe_journal (es : List Entry) : Safe E (journal es) := .of_ok fun _ hs => ⟨_, _, rfl, hs⟩

theorem safe_modifyWorld {f : World → World} (hf : ∀ w : World, w.Answers → (f w).Answers) :
    Safe E (modifyWorld f) := .of_ok fun s hs => ⟨_, _, rfl, hf s.world hs⟩

theorem safe_setSource (n : Nat) (x : Source) : Safe E (modifyWorld (·.setSource n x)) :=
  safe_modifyWorld fun _ hw => ⟨hw.registry, hw.aspects, hw.advisors, hw.configurations, hw.feeds⟩

theorem safe_acquire (n : Nat) : Safe E (acquire n) :=
  safe_world.bind fun _ => (safe_setSource _ _).bind fun _ => (safe_journal _).bind fun _ => .pure _

theorem safe_dispose (n : Nat) (target : Option Target) : Safe E (dispose n target) := by
  cases target with
  | none => exact .pure _
  | some t => exact safe_world.bind fun _ => (safe_setSource _ _).bind fun _ => safe_journal _

theorem safe_callBean (o : ObjectRef) (m : Method) (args : List Value) : Safe E (callBean o m args) := by
  refine safe_world.bind fun w => ?_
  cases w.beans[o.serial]? with
  | none => exact .pure _
  | some bean =>
    refine Confined.bind (safe_modifyWorld fun w hw => ?_) fun _ => (safe_journal _).bind fun _ => .pure _
    exact ⟨hw.registry, hw.aspects, hw.advisors, hw.configurations, hw.feeds⟩

theorem safe_edit {x : Edit α} (hx : Advised.KeepsAnswers x) (n : Nat) : Safe E (edit n x) := by
  refine .of_ok fun s hs => ?_
  cases hc : s.world.configurations[n]? with
  | none => exact ⟨_, s, edit_none x hc, hs⟩
  | some c =>
    have hanswers : c.Answers := World.Answers.configurations hs c (List.mem_of_getElem? hc)
    have hedited : { c with advised := (stateOf (x ⟨c.advised, s.world.asked, []⟩)).advised }.Answers :=
      ⟨(hx _ hanswers.advised).1, hanswers.resolver⟩
    exact ⟨_, _, edit_eq x hc, World.Answers.setConfiguration hs n hedited _⟩

/-- A chain that is looked up answers. -/
theorem answers_of_edit {resolver : Resolver} (hresolver : resolver.Answers) {isStatic : Bool} {m : Method}
    {c : Option Class} {n : Nat} {s t : Scene} {chain : Chain} (hs : Within World.Answers s)
    (h : edit n (Advised.chainBy resolver isStatic m c) s = .ok (.ok chain) t) : chain.Answers := by
  cases hc : s.world.configurations[n]? with
  | none =>
    rw [edit_none _ hc] at h
    cases h
  | some c =>
    obtain ⟨e, he, -⟩ := exists_of_edit_ok hc h
    have hanswers : c.Answers := World.Answers.configurations hs c (List.mem_of_getElem? hc)
    exact (hresolver.chainBy isStatic m _ hanswers.advised).2 chain (congrArg outcomeOf he)

theorem safe_takeOver (n : Nat) {f : Following} (hf : f.feed.Answers) : Safe E (takeOver n f) := by
  refine safe_world.bind_of fun s w _ hs hw => ?_
  cases hw
  by_cases h : (!(s.world.configurations[n]?.any fun c => c.advised.config.frozen)) = true
  · simp only [h, if_true]
    have heligible : ∀ a ∈ (s.world.eligible f.feed f.bean f.beanClass).items, a.Answers :=
      fun a ha => World.Answers.eligible hs hf ha
    refine (safe_journal _).bind fun _ =>
      (safe_edit (Advised.replaceAdvisors_keepsAnswers heligible) n).bind fun r => ?_
    cases r with
    | ok u => exact .pure _
    | error e => exact safe_journal _
  · simp only [h]
    exact .pure _

/-- A handle that follows an answering feed goes on to follow it. -/
theorem safe_refresh (k : Nat) : Safe E (refresh k) := by
  intro s hs
  by_cases hv : ∀ h f, s.world.handles[k]? = some h → h.following = some f →
      s.world.version f.feed = f.seen
  · rw [refresh_unchanged hv]
    exact ⟨hs, nofun⟩
  · simp only [Classical.not_forall] at hv
    obtain ⟨h, f, hh, hf, hv⟩ := hv
    have hfeed : f.feed.Answers := World.Answers.feeds hs h (List.mem_of_getElem? hh) f hf
    rw [refresh_changed hh hf hv]
    refine ((safe_takeOver h.configuration hfeed).bind fun _ => safe_modifyWorld fun w hw => ?_) s hs
    refine hw.setHandle k fun g hg => ?_
    cases hg
    exact hfeed

theorem safe_play {p : Play World α} (hp : Confined (Play.Amid World.Answers) E p) (i : Invocation) :
    Safe E (play i p) := by
  intro s hs
  obtain ⟨hstate, haborts⟩ := hp ⟨i, s.world, s.journal⟩ hs
  unfold play
  cases hr : p ⟨i, s.world, s.journal⟩ with
  | ok a t =>
    rw [hr] at hstate
    exact ⟨hstate, nofun⟩
  | error e t =>
    rw [hr] at hstate haborts
    refine ⟨hstate, ?_⟩
    rintro _ ⟨⟩
    exact haborts e rfl

theorem safe_obey (h : host.Confined World.Answers E) (c : Command) : Safe E (obey host c) := by
  intro s hs
  have hworld := h.world c s.world hs
  unfold obey
  dsimp only
  cases hr : (host.obey c s.world).result with
  | ok o => exact ⟨hworld, nofun⟩
  | error a =>
    refine ⟨hworld, ?_⟩
    rintro _ ⟨⟩
    exact h.aborts c s.world a hs hr

theorem safe_callAlong (h : host.Confined World.Answers E) {chain : Chain} (hchain : chain.Answers)
    (i : Invocation) : Safe E (callAlong host chain i) := by
  unfold callAlong
  cases chain with
  | nil =>
    cases i.target with
    | some t => exact safe_obey h _
    | none => exact .pure _
  | cons e chain => exact (safe_play (Play.confined_proceed h hchain) i).bind fun _ => .pure _

theorem safe_ensuring {first : Deed α} {last : Deed Unit} (hfirst : Safe E first) (hlast : Safe E last)
    (hreturns : Returns last) : Safe E (ensuring first last) := by
  intro s hs
  constructor
  · have hkeeps : Coincide (Within World.Answers) (ensuring first last) (ensuring first last) :=
      coincide_ensuring (.refl fun s hs => (hfirst s hs).1) (.refl fun s hs => (hlast s hs).1)
    exact hkeeps.keeps hs
  · rw [outcomeOf_ensuring hreturns]
    exact (hfirst s hs).2

theorem safe_intercept (h : host.Confined World.Answers E) (n : Nat) {resolver : Resolver}
    (hresolver : resolver.Answers) (source : Source) (target : Option Target) (proxy : Value) (m : Method)
    (args : List Value) : Safe E (intercept host n resolver source target proxy m args) := by
  refine (safe_edit (hresolver.chainBy_keepsAnswers _ m _) n).bind_of fun s r t hs hr => ?_
  cases r with
  | error f => exact .pure _
  | ok chain => exact (safe_callAlong h (answers_of_edit hresolver hs hr) _).bind fun _ => .pure _

theorem safe_callThrough (h : host.Confined World.Answers E) (n : Nat) (proxy : Value) (m : Method)
    (args : List Value) : Safe E (callThrough host n proxy m args) := by
  refine safe_world.bind_of fun s w _ hs hw => ?_
  cases hw
  cases hc : s.world.configurations[n]? with
  | none => exact .pure _
  | some c =>
    have hanswers : c.Answers := World.Answers.configurations hs c (List.mem_of_getElem? hc)
    refine safe_world.bind fun w => (safe_acquire _).bind fun r => ?_
    cases r with
    | error f => exact .pure _
    | ok target =>
      exact safe_ensuring (safe_intercept h n hanswers.resolver _ target proxy m args) (safe_dispose _ _)
        (returns_dispose _ _)

theorem safe_callHandle (h : host.Confined World.Answers E) (o : ObjectRef) (m : Method)
    (args : List Value) : Safe E (callHandle host o m args) := by
  refine safe_world.bind fun w => ?_
  cases w.handles[o.serial]? with
  | none => exact .pure _
  | some x =>
    dsimp only
    split
    · exact (safe_refresh _).bind fun _ => safe_callThrough h _ _ m args
    · exact .pure _

theorem safe_command {call : ObjectRef → Method → List Value → Deed (Outcome Value)}
    (hcall : ∀ o m args, Safe E (call o m args)) (c : Command) : Safe E (command call c) := by
  have hregistry (g : World → Registry) (hg : ∀ w : World, w.Answers → (g w).Answers) :
      Safe E (modifyWorld fun w => { w with registry := g w }) :=
    safe_modifyWorld fun w hw => ⟨hg w hw, hw.aspects, hw.advisors, hw.configurations, hw.feeds⟩
  cases c with
  | call receiver m args =>
    cases receiver with
    | bean o => exact safe_callBean o m args
    | handle o => exact hcall o m args
  | register n =>
    refine (hregistry _ fun w hw => ?_).bind fun _ => .pure _
    cases hx : w.aspects[n]? with
    | none => exact hw.registry
    | some x => exact hw.registry.register (hw.aspects x (List.mem_of_getElem? hx))
  | registerAdvisor n =>
    refine (hregistry _ fun w hw => ?_).bind fun _ => .pure _
    cases ha : w.advisors[n]? with
    | none => exact hw.registry
    | some a => exact hw.registry.registerAdvisor (hw.advisors a (List.mem_of_getElem? ha))
  | unregister name => exact (hregistry _ fun w hw => hw.registry.unregister name).bind fun _ => .pure _
  | clearRegistry => exact (hregistry _ fun _ _ => Registry.Answers.clear).bind fun _ => .pure _
  | swap n t =>
    refine Confined.bind (safe_modifyWorld fun w hw => ?_) fun _ => .pure _
    exact ⟨hw.registry, hw.aspects, hw.advisors, hw.configurations, hw.feeds⟩

theorem confined_of_safe {d : Command → Deed (Outcome Value)} (hd : ∀ c, host.obey c = reaction (d c))
    (h : ∀ c, Safe E (d c)) : host.Confined World.Answers E := by
  constructor
  · intro c w hw
    rw [hd, reaction_eq]
    exact (h c ⟨w, []⟩ hw).1
  · intro c w a hw
    rw [hd, reaction_eq]
    exact (h c ⟨w, []⟩ hw).2 a

end Deed

namespace World

/-- A world that answers aborts a command only if calls are nested too deep for it. -/
theorem host_confined (depth : Nat) :
    (World.host depth).Confined World.Answers fun a => a = .nestedTooDeep := by
  induction depth with
  | zero => exact Deed.confined_of_safe (fun _ => rfl) (Deed.safe_command fun _ _ _ => .throw rfl)
  | succ n ih => exact Deed.confined_of_safe (fun _ => rfl) (Deed.safe_command (Deed.safe_callHandle ih))

/-- Static matchers are never asked about arguments, if all matchers that claim to look at them have an
answer. A runtime matcher has one however it is composed, also of static parts. So an invocation that
proceeds along a resolved chain, whatever its interceptors do, is aborted only by the world around it. And
in a world that answers, commands and invocations leave such a world, and nothing aborts them but calls
that are nested too deep. -/
theorem static_never_asked :
    (∀ x : MethodMatcher, x.Answers → x.isRuntime = true →
      ∀ m c args, ∃ u, x.acceptsArgs m c args = .ok u) ∧
    (∀ (adapters : Adapters) (as : List Advisor) (m : Method) (c : Option Class) (r : Resolution),
      (∀ a ∈ as, a.Answers) → (Chain.resolve adapters as m c).1 = .ok r →
        (∀ (ω : Type) (host : Host ω) (s : Stage ω) (a : Abort),
          outcomeOf (Invocation.proceed host r.chain s) = .error a →
            ∃ c w, (host.obey c w).result = .error a) ∧
        ∀ (depth : Nat) (s : Stage World), s.world.Answers →
          (stateOf (Invocation.proceed (World.host depth) r.chain s)).world.Answers ∧
          ∀ a, outcomeOf (Invocation.proceed (World.host depth) r.chain s) = .error a →
            a = .nestedTooDeep) ∧
    ∀ (depth : Nat) (c : Command) (w : World), w.Answers →
      ((World.host depth).obey c w).world.Answers ∧
        ∀ a, ((World.host depth).obey c w).result = .error a → a = .nestedTooDeep := by
  refine ⟨?_, ?_, ?_⟩
  · intro x hx hr m c args
    obtain ⟨u, hu⟩ := hx.acceptsArgs_ok m c args
    exact ⟨u, hu hr⟩
  · intro adapters as m c r has hr
    have hchain : r.chain.Answers := Chain.answers_of_resolve has hr
    exact ⟨fun _ _ _ _ ha => hchain.aborted_by_host ha,
      fun depth s hs => Play.confined_proceed (host_confined depth) hchain s hs⟩
  · intro depth c w hw
    exact ⟨(host_confined depth).world c w hw, fun a => (host_confined depth).aborts c w a hw⟩

/-- Audits by their name, and all that takes no arguments. The first part cannot be asked about arguments. -/
def audits : MethodMatcher :=
  .union (.custom { accepts := fun m _ => m.name = "audit" })
    (.arguments .any fun _ args => args.isEmpty)

def twice : Interceptor := ⟨"twice", do
  let _ ← Program.proceed
  Program.proceed⟩

def auditor : Advisor := ⟨.pointcut ⟨.any, audits⟩ (.around twice), none, none⟩

def payroll : Method := ⟨"Bank", "payroll", ["i64"]⟩

def payday : Invocation where
  proxy := .unit
  target := some (.bean ⟨0, "bank"⟩)
  targetClass := none
  method := payroll
  arguments := [.int 7]

def audited : Configuration := { advised := { advisors := [auditor] }, source := 0 }

/-- Nobody audits here until a chain has been resolved. -/
def meddled : Configuration := { advised := {}, source := 0, resolver := Script.meddler 0 auditor }

def bank : World := { configurations := [audited, meddled], introductions := 1 }

theorem auditor_asks_no_static :
    (∀ a ∈ [auditor], a.Answers) ∧ bank.Answers ∧
      ∃ r, (Chain.resolve .builtIn [auditor] payroll none).1 = .ok r ∧ r.chain.length = 1 ∧
        ∀ a, outcomeOf (Invocation.proceed (World.host 0) r.chain ⟨payday, bank, []⟩) = .error a →
          a = .nestedTooDeep := by
  have hauditor : ∀ a ∈ [auditor], a.Answers := by
    intro a ha p advice hrole
    obtain rfl := List.mem_singleton.mp ha
    cases hrole
    exact ⟨nofun, trivial⟩
  have hconfigurations : ∀ c ∈ bank.configurations, c.Answers := by
    intro c hc
    obtain rfl | rfl : c = audited ∨ c = meddled := by simpa [bank] using hc
    · exact ⟨⟨hauditor, by simp [audited]⟩, Resolver.answers_resolve⟩
    · exact ⟨⟨by simp [meddled], by simp [meddled]⟩,
        Resolver.answers_meddler 0 (hauditor auditor (by simp))⟩
  have hworld : bank.Answers :=
    ⟨⟨by simp [bank], by simp [bank]⟩, by simp [bank], by simp [bank], hconfigurations, by simp [bank]⟩
  have hresolve : (Chain.resolve .builtIn [auditor] payroll none).1 =
      .ok ⟨[⟨twice, some audits⟩], false⟩ := by
    have hmatched : Chain.matched [auditor] payroll (Chain.classOf payroll none) =
        [(auditor, some audits)] := rfl
    simp only [Chain.resolve, hmatched, Advisor.sortBy, topologicalSort_singleton]
    rfl
  obtain ⟨-, hconfined⟩ := static_never_asked.2.1 .builtIn [auditor] payroll none _ hauditor hresolve
  exact ⟨hauditor, hworld, _, hresolve, rfl, (hconfined 0 ⟨payday, bank, []⟩ hworld).2⟩

end World
end Weaving
