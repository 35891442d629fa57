import Weaving.Proofs.Proxy.Edits

/-! Lookups of chains that are taken apart into their steps, which may be interleaved with those of other
lookups and with changes of the advisors. Each lookup ends after four steps of its own; if nothing
separates them, it does what a lookup in one go does. -/
namespace Weaving

/-- A lookup of the chain for a method of a class, by a proxy whose source is static or not. -/
structure Request where
  isStatic : Bool
  method : Method
  targetClass : Option Class

namespace Request

def key (q : Request) : ChainKey := Advised.keyFor q.method q.targetClass

/-- What is resolved for a list of advisors. -/
def answer (q : Request) (adapters : Adapters) (as : List Advisor) : Except Fault Chain :=
  (Chain.resolve adapters as q.method q.targetClass).1.map Resolution.chain

/-- The class is the one that goes by its name. -/
def Agrees (directory : String → Class) (q : Request) : Prop :=
  ∀ c, q.targetClass = some c → directory c.name = c

theorem agrees_class (isStatic : Bool) (m : Method) (c : Class) :
    (⟨isStatic, m, some c⟩ : Request).Agrees fun _ => c := by
  rintro c' ⟨⟩
  rfl

end Request

/-- How far a lookup has come: it looks at the chains that are kept, takes a snapshot, resolves a chain
for it, and publishes that chain. -/
inductive Phase
  | begun
  | missed
  | captured (s : Snapshot)
  | resolved (s : Snapshot) (r : Resolution)
  | ended (result : Except Fault Chain)

namespace Phase

/-- The next step of a lookup. -/
def advance (q : Request) (e : Editing) : Phase → Phase × Editing
  | begun => match e.advised.cached? q.key with
    | some chain => (ended (.ok chain), e)
    | none => (missed, e)
  | missed => (captured e.advised.snapshot, e)
  | captured s => match Advised.resolve s q.method q.targetClass e with
    | .ok r e => (resolved s r, e)
    | .error f e => (ended (.error f), e)
  | resolved s r =>
    let p := e.advised.publish q.isStatic s q.key r
    (ended (.ok p.1), { e with advised := p.2 })
  | ended result => (ended result, e)

/-- How many steps a lookup has to go at most. -/
def remaining : Phase → Nat
  | begun => 4
  | missed => 3
  | captured _ => 2
  | resolved _ _ => 1
  | ended _ => 0

theorem remaining_le (p : Phase) : p.remaining ≤ 4 := by
  cases p <;> simp [remaining]

theorem ended_of_remaining {p : Phase} (h : p.remaining = 0) : ∃ result, p = ended result := by
  cases p with
  | ended result => exact ⟨result, rfl⟩
  | _ => simp [remaining] at h

theorem remaining_advance (p : Phase) (q : Request) (e : Editing) :
    (p.advance q e).1.remaining ≤ p.remaining - 1 := by
  cases p with
  | begun => cases hk : e.advised.cached? q.key <;> simp [advance, hk, remaining]
  | captured s =>
    cases hr : Advised.resolve s q.method q.targetClass e <;> simp [advance, hr, remaining]
  | _ => simp [advance, remaining]

end Phase

/-- A change of the advisors, or the notice that they have changed. -/
inductive Change
  | add (a : Advisor)
  | remove (n : Nat)
  | replace (as : List Advisor)
  | notice

def Change.edit : Change → Edit Unit
  | add a => Advised.addAdvisor a
  | remove n => do let _ ← Advised.removeAdvisor n
  | replace as => Advised.replaceAdvisors as
  | notice => Advised.modify Advised.invalidate

structure Lookup where
  request : Request
  phase : Phase

/-- A configuration and the lookups that have begun, in the order in which they have. -/
structure Traffic where
  editing : Editing
  lookups : List Lookup := []

inductive Event
  | start (q : Request)
  | advance (n : Nat)
  | change (c : Change)

def Event.advances (n : Nat) : Event → Bool
  | advance k => k = n
  | _ => false

namespace Traffic

def advised (t : Traffic) : Advised := t.editing.advised

def step (t : Traffic) : Event → Traffic
  | .start q => { t with lookups := t.lookups ++ [⟨q, .begun⟩] }
  | .advance n => match t.lookups[n]? with
    | none => t
    | some l =>
      let r := l.phase.advance l.request t.editing
      ⟨r.2, t.lookups.set n ⟨l.request, r.1⟩⟩
  | .change c => { t with editing := stateOf (c.edit t.editing) }

def run (t : Traffic) (events : List Event) : Traffic := events.foldl step t

@[simp] theorem run_nil (t : Traffic) : t.run [] = t := rfl

@[simp] theorem run_append_singleton (t : Traffic) (events : List Event) (e : Event) :
    t.run (events ++ [e]) = (t.run events).step e := by
  simp [run]

theorem run_append (t : Traffic) (before after : List Event) :
    t.run (before ++ after) = (t.run before).run after := by
  simp [run]

/-- A lookup has begun and not ended. -/
def UnderWay (t : Traffic) (n : Nat) : Prop :=
  ∃ l, t.lookups[n]? = some l ∧ ∀ result, l.phase ≠ .ended result

/-- The advisors were these at a moment of a run at which a lookup was under way. -/
def Saw (t : Traffic) (events : List Event) (n : Nat) (as : List Advisor) : Prop :=
  ∃ before after, events = before ++ after ∧ (t.run before).UnderWay n ∧
    (t.run before).advised.advisors = as

theorem Saw.append {t : Traffic} {events : List Event} {n : Nat} {as : List Advisor}
    (h : t.Saw events n as) (e : Event) : t.Saw (events ++ [e]) n as := by
  obtain ⟨before, after, rfl, h⟩ := h
  exact ⟨before, after ++ [e], by simp, h⟩

theorem UnderWay.saw {t : Traffic} {events : List Event} {n : Nat} (h : (t.run events).UnderWay n)
    (e : Event) : t.Saw (events ++ [e]) n (t.run events).advised.advisors :=
  ⟨events, [e], rfl, h, rfl⟩

theorem step_remaining {t : Traffic} {n : Nat} {l : Lookup} (hn : t.lookups[n]? = some l) (e : Event) :
    ∃ p, (t.step e).lookups[n]? = some ⟨l.request, p⟩ ∧
      p.remaining ≤ l.phase.remaining - if e.advances n then 1 else 0 := by
  cases e with
  | start q =>
    obtain ⟨hlt, -⟩ := List.getElem?_eq_some_iff.mp hn
    refine ⟨l.phase, ?_, by simp [Event.advances]⟩
    rw [step, List.getElem?_append_left hlt, hn]
  | advance k =>
    by_cases hk : k = n
    · subst hk
      refine ⟨(l.phase.advance l.request t.editing).1, ?_, ?_⟩
      · obtain ⟨hlt, -⟩ := List.getElem?_eq_some_iff.mp hn
        simp only [step, hn]
        exact List.getElem?_set_self hlt
      · simpa [Event.advances] using l.phase.remaining_advance l.request t.editing
    · refine ⟨l.phase, ?_, by simp [Event.advances, hk]⟩
      cases hl : t.lookups[k]? <;> simp [step, hl, hk, hn]
  | change c => exact ⟨l.phase, hn, by simp [Event.advances]⟩

/-- Each step that a lookup takes brings it closer to its end, and nothing throws it back. -/
theorem run_remaining {t : Traffic} {n : Nat} {l : Lookup} (hn : t.lookups[n]? = some l)
    (events : List Event) : ∃ p, (t.run events).lookups[n]? = some ⟨l.request, p⟩ ∧
      p.remaining ≤ l.phase.remaining - events.countP (Event.advances n) := by
  induction events generalizing t l with
  | nil => exact ⟨l.phase, hn, Nat.le_refl _⟩
  | cons e events ih =>
    obtain ⟨p, hp, hle⟩ := step_remaining hn e
    obtain ⟨p', hp', hle'⟩ := ih hp
    refine ⟨p', hp', ?_⟩
    rw [List.countP_cons]
    dsimp only at hle'
    omega

theorem step_advance_last (e : Editing) (ls : List Lookup) (q : Request) (p : Phase) :
    step ⟨e, ls ++ [⟨q, p⟩]⟩ (.advance ls.length) =
      ⟨(p.advance q e).2, ls ++ [⟨q, (p.advance q e).1⟩]⟩ := by
  simp [step]

/-- A lookup whose steps nothing separates is a lookup in one go. -/
theorem run_lookup (t : Traffic) (q : Request) :
    t.run (.start q :: List.replicate 4 (.advance t.lookups.length)) =
      ⟨stateOf (Advised.chainFor q.isStatic q.method q.targetClass t.editing), t.lookups ++
        [⟨q, .ended (outcomeOf (Advised.chainFor q.isStatic q.method q.targetClass t.editing))⟩]⟩ := by
  obtain ⟨e, ls⟩ := t
  have hstart : step ⟨e, ls⟩ (.start q) = ⟨e, ls ++ [⟨q, .begun⟩]⟩ := rfl
  simp only [run, List.replicate, List.foldl_cons, List.foldl_nil, hstart, step_advance_last]
  rw [Advised.chainFor, Advised.chainBy_eq]
  dsimp only [Phase.advance, Request.key]
  cases e.advised.cached? (Advised.keyFor q.method q.targetClass) with
  | some chain => rfl
  | none =>
    dsimp only
    cases Advised.resolve e.advised.snapshot q.method q.targetClass e <;> rfl

end Traffic
end Weaving
