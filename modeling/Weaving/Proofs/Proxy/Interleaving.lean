import Mathlib.Data.List.Induction
import Weaving.Proofs.Proxy.Traffic
import Weaving.Proofs.Resolution

/-! Coherence of the chains that are kept. However lookups and changes are interleaved, a chain that is
kept is the one for the current advisors, and each lookup gives the chain for advisors that were current
while it was under way. -/
namespace Weaving

theorem Change.edit_resets (c : Change) : Advised.Resets c.edit := by
  cases c with
  | add a => exact Advised.addAdvisor_resets a
  | remove n => exact (Advised.removeAdvisor_resets n).void
  | replace as => exact Advised.replaceAdvisors_resets as
  | notice => exact Advised.invalidate_resets

namespace Advised

/-- How a configuration may go on: its advisors change with its generation only. -/
structure Later (d d' : Advised) : Prop where
  adapters : d'.adapters = d.adapters
  generation : d.generation ≤ d'.generation
  advisors : d'.generation = d.generation → d'.advisors = d.advisors

theorem Later.refl (d : Advised) : Later d d := ⟨rfl, Nat.le_refl _, fun _ => rfl⟩

theorem Later.trans {d d' d'' : Advised} (h : Later d d') (h' : Later d' d'') : Later d d'' := by
  have hle := h.generation
  have hle' := h'.generation
  refine ⟨h'.adapters.trans h.adapters, by omega, fun hd => ?_⟩
  rw [h'.advisors (by omega), h.advisors (by omega)]

/-- A snapshot is no newer than the configuration, and holds its advisors if it is no older. -/
structure Dated (d : Advised) (s : Snapshot) : Prop where
  generation : s.generation ≤ d.generation
  advisors : s.generation = d.generation → s.advisors = d.advisors

theorem Dated.later {d d' : Advised} {s : Snapshot} (h : Dated d s) (hd : Later d d') :
    Dated d' s := by
  have hle := h.generation
  have hle' := hd.generation
  refine ⟨by omega, fun hs => ?_⟩
  rw [h.advisors (by omega), hd.advisors (by omega)]

/-- A chain that is kept is one that may be kept for the current advisors. -/
def Keeps (directory : String → Class) (d : Advised) (x : ChainKey × Chain) : Prop :=
  ∃ r, (Chain.resolve d.adapters d.advisors x.1.method (x.1.className.map directory)).1 = .ok r ∧
    r.cacheable = true ∧ r.chain = x.2

/-- Every chain that is kept is the one for the current advisors. -/
def Coherent (directory : String → Class) (d : Advised) : Prop := ∀ x ∈ d.cache, Keeps directory d x

theorem Coherent.cached {directory : String → Class} {d : Advised} (h : Coherent directory d)
    {k : ChainKey} {chain : Chain} (hk : d.cached? k = some chain) : Keeps directory d (k, chain) := by
  obtain ⟨before, after, hcache, -⟩ := List.lookup_eq_some_iff.mp hk
  exact h _ (by simp [hcache])

/-- New advisors, or the same ones anew, leave no chain behind. -/
theorem later_setAdvisors (d : Advised) (interfaces : List String) (as : List Advisor) :
    Later d ({ d with interfaces }.setAdvisors as) := by
  refine ⟨rfl, Nat.le_succ _, fun h => ?_⟩
  change d.generation + 1 = d.generation at h
  omega

theorem coherent_setAdvisors {directory : String → Class} (d : Advised) (as : List Advisor) :
    Coherent directory (d.setAdvisors as) := by
  simp [Coherent, setAdvisors, invalidate]

theorem Resets.later {α : Type} {x : Edit α} (h : Resets x) (e : Editing) :
    Later e.advised (stateOf (x e)).advised := by
  obtain he | ⟨interfaces, as, he⟩ := h e
  · rw [he]
    exact .refl _
  · rw [he]
    exact later_setAdvisors _ _ _

theorem Resets.coherent {α : Type} {x : Edit α} (h : Resets x) {directory : String → Class} {e : Editing}
    (hc : e.advised.Coherent directory) : (stateOf (x e)).advised.Coherent directory := by
  obtain he | ⟨interfaces, as, he⟩ := h e
  · rwa [he]
  · rw [he]
    exact coherent_setAdvisors _ as

end Advised

namespace Phase

/-- What a lookup has is right for advisors that it saw. -/
def Sound (d : Advised) (saw : List Advisor → Prop) (q : Request) : Phase → Prop
  | begun | missed => True
  | captured s => d.Dated s ∧ saw s.advisors
  | resolved s r => d.Dated s ∧ saw s.advisors ∧
      (Chain.resolve d.adapters s.advisors q.method q.targetClass).1 = .ok r
  | ended result => ∃ as, saw as ∧ result = q.answer d.adapters as

theorem Sound.later {d d' : Advised} {saw saw' : List Advisor → Prop} {q : Request} {p : Phase}
    (h : p.Sound d saw q) (hd : d.Later d') (hsaw : ∀ as, saw as → saw' as) : p.Sound d' saw' q := by
  cases p with
  | begun | missed => trivial
  | captured s => exact ⟨h.1.later hd, hsaw _ h.2⟩
  | resolved s r => exact ⟨h.1.later hd, hsaw _ h.2.1, by rw [hd.adapters]; exact h.2.2⟩
  | ended result =>
    obtain ⟨as, has, rfl⟩ := h
    exact ⟨as, hsaw _ has, by rw [hd.adapters]⟩

variable {directory : String → Class} {q : Request} {e : Editing} {saw : List Advisor → Prop}

theorem answer_of_resolve {adapters : Adapters} {as : List Advisor} {r : Resolution}
    (h : (Chain.resolve adapters as q.method q.targetClass).1 = .ok r) :
    q.answer adapters as = .ok r.chain := by
  rw [Request.answer, h]
  rfl

/-- The class of a request is found again under the name that its chain is kept under. -/
theorem class_of_key (hq : q.Agrees directory) : q.key.className.map directory = q.targetClass := by
  change (q.targetClass.map Class.name).map directory = q.targetClass
  cases hc : q.targetClass with
  | none => rfl
  | some c => exact congrArg some (hq c hc)

theorem answer_of_keeps {d : Advised} {chain : Chain} (hq : q.Agrees directory)
    (h : d.Keeps directory (q.key, chain)) : q.answer d.adapters d.advisors = .ok chain := by
  obtain ⟨r, hr, -, rfl⟩ := h
  rw [class_of_key hq] at hr
  exact answer_of_resolve hr

/-- What a step of a lookup has to preserve. -/
structure Preserved (directory : String → Class) (saw : List Advisor → Prop) (q : Request) (e : Editing)
    (r : Phase × Editing) : Prop where
  later : e.advised.Later r.2.advised
  coherent : r.2.advised.Coherent directory
  sound : r.1.Sound r.2.advised saw q

theorem preserved_begun (hq : q.Agrees directory) (hc : e.advised.Coherent directory)
    (hnow : saw e.advised.advisors) : Preserved directory saw q e (begun.advance q e) := by
  cases hk : e.advised.cached? q.key with
  | none =>
    have hstep : begun.advance q e = (missed, e) := by simp only [advance, hk]
    rw [hstep]
    exact ⟨.refl _, hc, trivial⟩
  | some chain =>
    have hstep : begun.advance q e = (ended (.ok chain), e) := by simp only [advance, hk]
    rw [hstep]
    exact ⟨.refl _, hc, _, hnow, (answer_of_keeps hq (hc.cached hk)).symm⟩

theorem preserved_captured {s : Snapshot} (hc : e.advised.Coherent directory)
    (h : (captured s).Sound e.advised saw q) :
    Preserved directory saw q e ((captured s).advance q e) := by
  have hresolve := Advised.resolve_eq s q.method q.targetClass e
  dsimp only at hresolve
  cases hr : (Chain.resolve e.advised.adapters s.advisors q.method q.targetClass).1 with
  | ok r =>
    rw [hr] at hresolve
    simp only [advance, hresolve]
    exact ⟨.refl _, hc, h.1, h.2, hr⟩
  | error f =>
    rw [hr] at hresolve
    simp only [advance, hresolve]
    refine ⟨.refl _, hc, s.advisors, h.2, ?_⟩
    rw [Request.answer, hr]
    rfl

theorem preserved_resolved {s : Snapshot} {r : Resolution} (hq : q.Agrees directory)
    (hc : e.advised.Coherent directory) (h : (resolved s r).Sound e.advised saw q)
    (hnow : saw e.advised.advisors) : Preserved directory saw q e ((resolved s r).advance q e) := by
  obtain ⟨hs, hsaw, hr⟩ := h
  change Preserved directory saw q e (ended (.ok (e.advised.publish q.isStatic s q.key r).1),
    { e with advised := (e.advised.publish q.isStatic s q.key r).2 })
  obtain ⟨chain, hk, hp⟩ | hp | ⟨hcacheable, hgeneration, hp⟩ :=
    e.advised.publish_cases q.isStatic s q.key r
  · rw [hp]
    exact ⟨.refl _, hc, _, hnow, (answer_of_keeps hq (hc.cached hk)).symm⟩
  · rw [hp]
    exact ⟨.refl _, hc, s.advisors, hsaw, (answer_of_resolve hr).symm⟩
  · rw [hp]
    refine ⟨⟨rfl, Nat.le_refl _, fun _ => rfl⟩, fun x hx => ?_, s.advisors, hsaw,
      (answer_of_resolve hr).symm⟩
    obtain rfl | hx := List.mem_cons.mp hx
    · refine ⟨r, ?_, hcacheable, rfl⟩
      rw [class_of_key hq]
      rwa [hs.advisors hgeneration.symm] at hr
    · exact hc x hx

theorem preserved_advance {p : Phase} (hq : q.Agrees directory) (hc : e.advised.Coherent directory)
    (h : p.Sound e.advised saw q) (hnow : (∀ result, p ≠ ended result) → saw e.advised.advisors) :
    Preserved directory saw q e (p.advance q e) := by
  cases p with
  | begun => exact preserved_begun hq hc (hnow (by simp))
  | missed => exact ⟨.refl _, hc, ⟨Nat.le_refl _, fun _ => rfl⟩, hnow (by simp)⟩
  | captured s => exact preserved_captured hc h
  | resolved s r => exact preserved_resolved hq hc h (hnow (by simp))
  | ended result => exact ⟨.refl _, hc, h⟩

end Phase

namespace Traffic

/-- Every chain that is kept is right, and so is what every lookup has. -/
structure Sound (directory : String → Class) (saw : Nat → List Advisor → Prop) (t : Traffic) :
    Prop where
  coherent : t.advised.Coherent directory
  agree : ∀ (n : Nat) (l : Lookup), t.lookups[n]? = some l → l.request.Agrees directory
  lookups : ∀ (n : Nat) (l : Lookup), t.lookups[n]? = some l → l.phase.Sound t.advised (saw n) l.request

variable {directory : String → Class} {saw saw' : Nat → List Advisor → Prop} {t : Traffic}

theorem Sound.later (h : t.Sound directory saw) (hsaw : ∀ n as, saw n as → saw' n as) {e : Editing}
    (hlater : t.advised.Later e.advised) (hcoherent : e.advised.Coherent directory) :
    Traffic.Sound directory saw' { t with editing := e } :=
  ⟨hcoherent, h.agree, fun n l hl => (h.lookups n l hl).later hlater (hsaw n)⟩

theorem Sound.start (h : t.Sound directory saw) {q : Request} (hq : q.Agrees directory) :
    (t.step (.start q)).Sound directory saw := by
  have hcases (n : Nat) (l : Lookup) (hl : (t.lookups ++ [⟨q, .begun⟩])[n]? = some l) :
      t.lookups[n]? = some l ∨ l = ⟨q, .begun⟩ := by
    rw [List.getElem?_append] at hl
    split at hl
    · exact .inl hl
    · exact .inr (by simpa using List.mem_of_getElem? hl)
  refine ⟨h.coherent, fun n l hl => ?_, fun n l hl => ?_⟩
  · obtain hl | rfl := hcases n l hl
    · exact h.agree n l hl
    · exact hq
  · obtain hl | rfl := hcases n l hl
    · exact h.lookups n l hl
    · trivial

theorem Sound.advance (h : t.Sound directory saw) {n : Nat}
    (hnow : t.UnderWay n → saw n t.advised.advisors) :
    t.advised.Later (t.step (.advance n)).advised ∧ (t.step (.advance n)).Sound directory saw := by
  unfold step
  cases hn : t.lookups[n]? with
  | none =>
    dsimp only
    rw [hn]
    exact ⟨.refl _, h⟩
  | some l =>
    dsimp only
    rw [hn]
    obtain ⟨hlater, hcoherent, hsound⟩ := Phase.preserved_advance (h.agree n l hn) h.coherent
      (h.lookups n l hn) fun hl => hnow ⟨l, hn, hl⟩
    have hrest := h.later (fun _ _ => id) hlater hcoherent
    refine ⟨hlater, hcoherent, fun k l' hl' => ?_, fun k l' hl' => ?_⟩
    · obtain hl' | rfl := List.mem_or_eq_of_mem_set (List.mem_of_getElem? hl')
      · obtain ⟨k, hk⟩ := List.mem_iff_getElem?.mp hl'
        exact h.agree k l' hk
      · exact h.agree n l hn
    · rw [List.getElem?_set] at hl'
      split at hl'
      next hnk =>
        subst hnk
        obtain ⟨-, hl'⟩ := Option.ite_none_right_eq_some.mp hl'
        cases hl'
        exact hsound
      next => exact hrest.lookups k l' hl'

theorem Sound.change (h : t.Sound directory saw) (c : Change) :
    t.advised.Later (t.step (.change c)).advised ∧ (t.step (.change c)).Sound directory saw := by
  have hlater := c.edit_resets.later t.editing
  exact ⟨hlater, h.later (fun _ _ => id) hlater (c.edit_resets.coherent h.coherent)⟩

/-- What every step preserves, if what each lookup sees now counts as seen. -/
theorem Sound.step (h : t.Sound directory saw) (hnow : ∀ n, t.UnderWay n → saw n t.advised.advisors)
    (e : Event) (he : ∀ q, e = .start q → q.Agrees directory) :
    t.advised.Later (t.step e).advised ∧ (t.step e).Sound directory saw := by
  cases e with
  | start q => exact ⟨.refl _, h.start (he q rfl)⟩
  | advance n => exact h.advance (hnow n)
  | change c => exact h.change c

/-- What every run preserves. -/
theorem run_sound (coherent : t.advised.Coherent directory) (idle : t.lookups = [])
    (events : List Event) (agree : ∀ q, .start q ∈ events → q.Agrees directory) :
    t.advised.Later (t.run events).advised ∧ (t.run events).Sound directory (t.Saw events) := by
  induction events using List.reverseRecOn with
  | nil => exact ⟨.refl _, coherent, by simp [idle], by simp [idle]⟩
  | append_singleton events e ih =>
    obtain ⟨hlater, h⟩ := ih fun q hq => agree q (by simp [hq])
    have hseen := h.later (fun n as hn => hn.append e) (.refl _) h.coherent
    rw [run_append_singleton]
    obtain ⟨hlater', h'⟩ := hseen.step (fun n hn => hn.saw e) e fun q hq => agree q (by simp [hq])
    exact ⟨hlater.trans hlater', h'⟩

/-- A lookup in one go leaves right chains. -/
theorem chainFor_coherent {q : Request} {e : Editing} (hc : e.advised.Coherent directory)
    (hq : q.Agrees directory) :
    (stateOf (Advised.chainFor q.isStatic q.method q.targetClass e)).advised.Coherent directory := by
  have hlookup := run_lookup ⟨e, []⟩ q
  have hrun := run_sound (t := ⟨e, []⟩) hc rfl (.start q :: List.replicate 4 (.advance 0)) (by simp [hq])
  rw [List.length_nil] at hlookup
  rw [hlookup] at hrun
  exact hrun.2.coherent

/-- The chain that is kept, if there is one, is what is resolved for the current advisors. -/
theorem chainNow_eq {q : Request} {d : Advised} (hc : d.Coherent directory) (hq : q.Agrees directory) :
    d.chainNow q.method q.targetClass = q.answer d.adapters d.advisors := by
  have hkey : Advised.keyFor q.method q.targetClass = q.key := rfl
  rw [Advised.chainNow, hkey]
  cases hk : d.cached? q.key with
  | some chain => exact (Phase.answer_of_keeps hq (hc.cached hk)).symm
  | none => rfl

/-- A lookup in one go gives what is resolved for the current advisors. -/
theorem outcomeOf_chainFor {q : Request} {e : Editing} (hc : e.advised.Coherent directory)
    (hq : q.Agrees directory) : outcomeOf (Advised.chainFor q.isStatic q.method q.targetClass e) =
      q.answer e.advised.adapters e.advised.advisors := by
  rw [Advised.outcomeOf_chainFor, chainNow_eq hc hq]

/-- Lookups are coherent with changes. In every state that a run reaches from idle, each chain that is
kept is the one for the current advisors, and looks at no arguments. A lookup that has ended gave the
chain for advisors that were current while it was under way, and it has ended after four steps of its
own, whatever came between. A lookup in one go, or one whose steps nothing separates, gives the chain
for the current advisors. -/
theorem lookups_coherent (directory : String → Class) (t : Traffic) (fresh : t.advised.cache = [])
    (idle : t.lookups = []) (events : List Event)
    (agree : ∀ q, .start q ∈ events → q.Agrees directory) :
    (∀ k chain, (t.run events).advised.cached? k = some chain →
      (Chain.resolve t.advised.adapters (t.run events).advised.advisors k.method
        (k.className.map directory)).1.map Resolution.chain = .ok chain ∧
      ∀ x ∈ chain, x.isDynamic = false) ∧
    (∀ (n : Nat) q result, (t.run events).lookups[n]? = some ⟨q, .ended result⟩ →
      ∃ as, t.Saw events n as ∧ result = q.answer t.advised.adapters as) ∧
    (∀ (n : Nat) l before after, events = before ++ after → (t.run before).lookups[n]? = some l →
      4 ≤ after.countP (Event.advances n) →
      ∃ result, (t.run events).lookups[n]? = some ⟨l.request, .ended result⟩) ∧
    ∀ q, q.Agrees directory →
      outcomeOf (Advised.chainFor q.isStatic q.method q.targetClass (t.run events).editing) =
        q.answer t.advised.adapters (t.run events).advised.advisors ∧
      ((t.run events).run
        (.start q :: List.replicate 4 (.advance (t.run events).lookups.length))).lookups =
        (t.run events).lookups ++
          [⟨q, .ended (q.answer t.advised.adapters (t.run events).advised.advisors)⟩] := by
  have hc : t.advised.Coherent directory := by simp [Advised.Coherent, fresh]
  obtain ⟨hlater, h⟩ := run_sound hc idle events agree
  rw [← hlater.adapters]
  refine ⟨fun k chain hk => ?_, fun n q result hn => h.lookups n _ hn, ?_, fun q hq => ?_⟩
  · obtain ⟨r, hr, hcacheable, rfl⟩ := h.coherent.cached hk
    refine ⟨?_, fun x hx => Chain.isDynamic_eq_false_of_cacheable hr hcacheable hx⟩
    rw [hr]
    rfl
  · rintro n l before after rfl hn hcount
    obtain ⟨p, hp, hle⟩ := run_remaining hn after
    have hl : l.phase.remaining ≤ 4 := l.phase.remaining_le
    have hp0 : p.remaining = 0 := by omega
    obtain ⟨result, rfl⟩ := p.ended_of_remaining hp0
    exact ⟨result, by rw [run_append, hp]⟩
  · have hanswer := outcomeOf_chainFor h.coherent hq
    refine ⟨hanswer, ?_⟩
    rw [run_lookup, hanswer]
    rfl

/-- An interceptor that returns at once, and a request that no advisor answers at first. -/
def bystander : Interceptor := ⟨"bystander", .done (.ok .unit)⟩

def unadvised : Traffic := ⟨⟨{}, fun _ => 0, []⟩, []⟩

def anyone : Request := ⟨true, ⟨"Service", "serve", []⟩, none⟩

/-- A lookup takes its snapshot before an advisor is added, and resolves its chain afterwards. -/
def overtaken : List Event :=
  [.start anyone, .advance 0, .advance 0, .change (.add (.always (.around bystander))), .advance 0,
    .advance 0]

/-- The lookup that is overtaken gives the empty chain of the old advisors, which is not kept. -/
theorem overtaken_coherent :
    (unadvised.run overtaken).lookups[0]? = some ⟨anyone, .ended (.ok [])⟩ ∧
      (∃ as, unadvised.Saw overtaken 0 as ∧ .ok [] = anyone.answer .builtIn as) ∧
      (unadvised.run overtaken).advised.cache = [] ∧
      outcomeOf (Advised.chainFor true anyone.method none (unadvised.run overtaken).editing) =
        anyone.answer .builtIn [.always (.around bystander)] := by
  have hagree : ∀ q, .start q ∈ overtaken → q.Agrees fun _ => .named "Service" := by
    intro q hq
    obtain rfl : q = anyone := by simpa [overtaken] using hq
    simp [Request.Agrees, anyone]
  obtain ⟨-, hended, -, hnow⟩ :=
    lookups_coherent (fun _ => .named "Service") unadvised rfl rfl overtaken hagree
  exact ⟨rfl, hended 0 anyone _ rfl, rfl, (hnow anyone (by simp [Request.Agrees, anyone])).1⟩

end Traffic

end Weaving
