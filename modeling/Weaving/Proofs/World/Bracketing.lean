import Weaving.Proofs.World.Deeds
import Weaving.Proofs.World.Watch

/-! Calls under watch do what calls do, and what is recorded of a call has the form of one: its target is
acquired at its start and given back at its end, with everything that happens meanwhile in between. -/
namespace Weaving.Watch

variable {α β : Type}

/-- How a deed ends, with what has been recorded by then. -/
def ending (es : List Event) : EStateM.Result Abort Scene α → EStateM.Result Abort Watching α
  | .ok a s => .ok a ⟨s, es⟩
  | .error e s => .error e ⟨s, es⟩

/-- One ending is the other one under watch. What has been recorded since the past has a form, which may
depend on the outcome, and is all that happened to the sources. -/
def Recorded (form : Except Abort α → List Event → Prop) (ss : List Source) (past : List Event)
    (r : EStateM.Result Abort Scene α) (r' : EStateM.Result Abort Watching α) : Prop :=
  ∃ es, r' = ending (past ++ es) r ∧ form (outcomeOf r) es ∧
    Event.Accounts ss es (stateOf r).world.sources

/-- A watched deed ends as the deed does, and what it records has a form. -/
def Records (form : Except Abort α → List Event → Prop) (d : Deed α) (x : Watch α) : Prop :=
  ∀ s past, Recorded form s.world.sources past (d s) (x ⟨s, past⟩)

/-- A deed that may be done while a call is on its way to a target. -/
abbrev Goes (target : Option Target) (d : Deed α) (x : Watch α) : Prop :=
  Records (fun _ => Event.During target) d x

variable {form form' : Except Abort α → List Event → Prop} {d : Deed α} {x : Watch α}
  {f : α → Deed β} {g : α → Watch β} {target : Option Target}

theorem Records.mono (h : Records form d x) (hform : ∀ r es, form r es → form' r es) :
    Records form' d x := by
  intro s past
  obtain ⟨es, heq, hes, haccounts⟩ := h s past
  exact ⟨es, heq, hform _ _ hes, haccounts⟩

/-- What is recorded of two deeds in a row, of which the first may be aborted. -/
theorem Records.bind (next : α → Except Abort β → List Event → Prop) (h : Records form d x)
    (hf : ∀ a, Records (next a) (f a) (g a)) :
    Records (fun r es => (∃ a es₁ es₂, es = es₁ ++ es₂ ∧ form (.ok a) es₁ ∧ next a r es₂) ∨
      ∃ e, r = .error e ∧ form (.error e) es) (d >>= f) (x >>= g) := by
  intro s past
  obtain ⟨es, heq, hes, haccounts⟩ := h s past
  change Recorded _ _ past (EStateM.bind d f s) (EStateM.bind x g ⟨s, past⟩)
  unfold EStateM.bind
  rw [heq]
  cases hd : d s with
  | ok a t =>
    rw [hd] at hes haccounts
    obtain ⟨es', heq', hes', haccounts'⟩ := hf a t (past ++ es)
    change Recorded _ _ past (f a t) (g a ⟨t, past ++ es⟩)
    refine ⟨es ++ es', ?_, .inl ⟨a, es, es', rfl, hes, hes'⟩, haccounts.append haccounts'⟩
    rw [← List.append_assoc]
    exact heq'
  | error e t =>
    rw [hd] at hes haccounts
    exact ⟨es, rfl, .inr ⟨e, rfl, hes⟩, haccounts⟩

theorem Goes.bind (h : Goes target d x) (hf : ∀ a, Goes target (f a) (g a)) :
    Goes target (d >>= f) (x >>= g) := by
  refine (Records.bind (fun _ _ => Event.During target) h hf).mono ?_
  rintro r es (⟨a, es₁, es₂, rfl, h₁, h₂⟩ | ⟨e, -, h⟩)
  · exact h₂.append h₁
  · exact h

theorem records_pure (a : α) (h : form (.ok a) []) : Records form (pure a) (pure a) := by
  intro s past
  exact ⟨[], by rw [List.append_nil]; rfl, h, .nil⟩

theorem goes_pure (a : α) : Goes target (pure a) (pure a) := records_pure a .nil

theorem goes_throw (e : Abort) : Goes target (throw e : Deed α) (throw e) := by
  intro s past
  exact ⟨[], by rw [List.append_nil]; rfl, .nil, .nil⟩

/-- A world has these sources. -/
def Supplied (ss : List Source) (w : World) : Prop := w.sources = ss

/-- Nothing need be recorded while the sources are left alone. -/
theorem goes_deed (h : ∀ ss, Coincide (Deed.Within (Supplied ss)) d d) : Goes target d (deed d) := by
  intro s past
  have hsources : (stateOf (d s)).world.sources = s.world.sources := (h s.world.sources).keeps rfl
  refine ⟨[], ?_, .nil, ?_⟩
  · unfold deed
    rw [List.append_nil]
    cases d s <;> rfl
  · rw [hsources]
    exact .nil

section

variable {ss : List Source}

theorem supplied_edit {γ : Type} (n : Nat) (e : Edit γ) :
    Coincide (Deed.Within (Supplied ss)) (Deed.edit n e) (Deed.edit n e) :=
  Deed.coincide_edit (fun _ _ _ h => h) e

theorem supplied_refresh (k : Nat) :
    Coincide (Deed.Within (Supplied ss)) (Deed.refresh k) (Deed.refresh k) :=
  Deed.coincide_refresh (fun _ _ _ _ _ _ _ h => h) fun _ _ _ _ _ _ _ h => h

theorem supplied_callBean (o : ObjectRef) (m : Method) (args : List Value) :
    Coincide (Deed.Within (Supplied ss)) (Deed.callBean o m args) (Deed.callBean o m args) := by
  refine Deed.coincide_world.bind fun w => ?_
  cases w.beans[o.serial]? with
  | none => exact .pure _
  | some bean =>
    refine Coincide.bind (.refl fun _ hs => hs) fun _ => ?_
    exact (Deed.coincide_journal _).bind fun _ => .pure _

end

theorem records_acquire (n : Nat) :
    Records (fun r es => ∃ outcome, r = .ok outcome ∧ es = [.acquired n outcome]) (Deed.acquire n)
      (acquire n) := by
  intro s past
  exact ⟨_, rfl, ⟨_, rfl, rfl⟩, .single rfl⟩

theorem dispose_snd (t : Target) (s : Source) : (s.dispose t).2 = (s.release t).2 := by
  unfold Source.dispose
  dsimp only
  split <;> rfl

/-- What is recorded when a target is given back, if there is one. -/
def Disposal (n : Nat) : Option Target → List Event → Prop
  | none, es => es = []
  | some t, es => ∃ outcome, es = [.released n t outcome]

theorem records_dispose (n : Nat) (target : Option Target) :
    Records (fun r es => r = .ok () ∧ Disposal n target es) (Deed.dispose n target)
      (dispose n target) := by
  cases target with
  | none => exact records_pure () ⟨rfl, rfl⟩
  | some t =>
    intro s past
    refine ⟨[.released n t ((s.world.source n).release t).1.2], rfl, ⟨rfl, _, rfl⟩, ?_⟩
    have hsources : (stateOf (Deed.dispose n (some t) s)).world.sources =
        (Event.released n t ((s.world.source n).release t).1.2).move s.world.sources :=
      congrArg (s.world.sources.set n) (dispose_snd t (s.world.source n))
    rw [hsources]
    exact .single rfl

/-- A result with another state. -/
def leaving {σ τ : Type} (t : τ) : EStateM.Result Abort σ α → EStateM.Result Abort τ α
  | .ok a _ => .ok a t
  | .error e _ => .error e t

theorem ensuring_of_last {last : Deed Unit} {s t : Scene} (h : last (stateOf (d s)) = .ok () t) :
    Deed.ensuring d last s = leaving t (d s) := by
  unfold Deed.ensuring
  cases hd : d s with
  | ok a u =>
    rw [hd] at h
    simp only [stateOf] at h
    simp only [h, leaving]
  | error e u =>
    rw [hd] at h
    simp only [stateOf] at h
    simp only [h, leaving]

theorem ensuring_of_ending {last : Watch Unit} {w w' : Watching} {es : List Event}
    {r : EStateM.Result Abort Scene α} (h : x w = ending es r) (hlast : last ⟨stateOf r, es⟩ = .ok () w') :
    ensuring x last w = leaving w' r := by
  unfold ensuring
  rw [h]
  cases r with
  | ok a u =>
    simp only [stateOf] at hlast
    simp only [ending, hlast, leaving]
  | error e u =>
    simp only [stateOf] at hlast
    simp only [ending, hlast, leaving]

theorem finishing_of_ending {x : Watch (Outcome Value)} {w : Watching} {es : List Event}
    {r : EStateM.Result Abort Scene (Outcome Value)} (h : x w = ending es r) :
    finishing x w = ending (es ++ [.finished (outcomeOf r)]) r := by
  unfold finishing
  rw [h]
  cases r <;> rfl

theorem leaving_ending (r : EStateM.Result Abort Scene α) (t : Scene) (es : List Event) :
    leaving (⟨t, es⟩ : Watching) r = ending es (leaving t r) := by
  cases r <;> rfl

/-- What is done last happens after the call has finished, also when the call was aborted. -/
theorem records_ensuring {d : Deed (Outcome Value)} {x : Watch (Outcome Value)}
    {form : Except Abort (Outcome Value) → List Event → Prop} {last : Deed Unit} {last' : Watch Unit}
    {after : List Event → Prop} (h : Records form d x)
    (hlast : Records (fun r es => r = .ok () ∧ after es) last last') :
    Records (fun r es => ∃ es₁ es₂, es = es₁ ++ .finished r :: es₂ ∧ form r es₁ ∧ after es₂)
      (Deed.ensuring d last) (ensuring (finishing x) last') := by
  intro s past
  obtain ⟨es, heq, hes, haccounts⟩ := h s past
  let finished := Event.finished (outcomeOf (d s))
  obtain ⟨es', heq', ⟨hok, hafter⟩, haccounts'⟩ := hlast (stateOf (d s)) (past ++ es ++ [finished])
  -- what is done last is never aborted, so that the outcome is that of the call
  obtain ⟨t, ht⟩ : ∃ t, last (stateOf (d s)) = .ok () t := by
    cases hl : last (stateOf (d s)) with
    | ok u t => exact ⟨t, rfl⟩
    | error e t =>
      rw [hl] at hok
      cases hok
  rw [ht] at heq' haccounts'
  have houtcome : outcomeOf (leaving t (d s)) = outcomeOf (d s) := by cases d s <;> rfl
  have hstate : stateOf (leaving t (d s)) = t := by cases d s <;> rfl
  rw [ensuring_of_last ht, ensuring_of_ending (finishing_of_ending heq) heq', leaving_ending]
  refine ⟨es ++ finished :: es', ?_, ?_, ?_⟩
  · simp
  · rw [houtcome]
    exact ⟨es, es', rfl, hes, hafter⟩
  · rw [hstate]
    exact haccounts.append (.cons trivial haccounts')

/-- The watched world has recorded what happened since the past while a call is on its way to a target. -/
def Kept (ss : List Source) (past : List Event) (target : Option Target) (w : World) (w' : Watched) :
    Prop :=
  ∃ es, w' = ⟨w, past ++ es⟩ ∧ Event.During target es ∧ Event.Accounts ss es w.sources

theorem kept_refl (w : World) (past : List Event) (target : Option Target) :
    Kept w.sources past target w ⟨w, past⟩ := ⟨[], by rw [List.append_nil], .nil, .nil⟩

/-- A host obeys as another one does, under watch. -/
def Watches (host : Host World) (host' : Host Watched) : Prop :=
  ∀ ss past target, Host.Simulates (Kept ss past target) host host'

section

variable {host : Host World} {host' : Host Watched}

theorem goes_obey (h : Watches host host') (c : Command) :
    Goes target (Deed.obey host c) (obey host' c) := by
  intro s past
  have hobey := (h s.world.sources past target).obey c _ _ (kept_refl s.world past target)
  obtain ⟨es, heq, hes, haccounts⟩ := hobey.world
  unfold Deed.obey obey
  dsimp only
  rw [← hobey.result, ← hobey.entries, heq]
  cases (host.obey c s.world).result with
  | ok o => exact ⟨es, rfl, hes, haccounts⟩
  | error e => exact ⟨es, rfl, hes, haccounts⟩

theorem goes_play {p : Play World α} {p' : Play Watched α} {i : Invocation}
    (h : ∀ ss past, Play.Alongside (Kept ss past i.target) i.target p p') :
    Goes i.target (Deed.play i p) (play i p') := by
  intro s past
  have hbeside : Play.Beside (Kept s.world.sources past i.target) i.target
      ⟨i, s.world, s.journal⟩ ⟨i, ⟨s.world, past⟩, s.journal⟩ :=
    ⟨rfl, rfl, rfl, kept_refl _ _ _⟩
  have hpaired := h s.world.sources past _ _ hbeside
  unfold Deed.play play
  dsimp only
  generalize p ⟨i, s.world, s.journal⟩ = r, p' ⟨i, ⟨s.world, past⟩, s.journal⟩ = r' at hpaired
  cases hpaired with
  | ok hend =>
    obtain ⟨hinvocation, -, hjournal, es, hworld, hes, haccounts⟩ := hend
    refine ⟨es, ?_, hes, haccounts⟩
    simp [ending, hinvocation, hjournal, hworld]
  | error hend =>
    obtain ⟨-, -, hjournal, es, hworld, hes, haccounts⟩ := hend
    refine ⟨es, ?_, hes, haccounts⟩
    simp [ending, hjournal, hworld]

/-- The call reaches the target that it has acquired, and no other. -/
theorem alongside_joinpoint (h : Watches host host') (ss : List Source) (past : List Event) :
    Play.Alongside (Kept ss past target) target (Invocation.joinpoint host) (joinpoint host') := by
  refine Play.alongside_invocation fun i hi => ?_
  cases ht : i.target with
  | none => exact Play.alongside_pure _
  | some t =>
    intro s s' hs
    obtain ⟨hinvocation, htarget, hjournal, es, hworld, hes, haccounts⟩ := hs
    have hreached : Event.During target [.reached t] := by
      rw [← hi, ht]
      exact .reached .nil
    refine Play.alongside_command (h ss past target) _ s
      { s' with world := { s'.world with events := s'.world.events ++ [.reached t] } }
      ⟨hinvocation, htarget, hjournal, es ++ [.reached t], ?_, hreached.append hes, ?_⟩
    · rw [hworld, List.append_assoc]
    · exact haccounts.append (.single trivial)

theorem goes_callAlong (h : Watches host host') (chain : Chain) (i : Invocation) :
    Goes i.target (Deed.callAlong host chain i) (callAlong host' chain i) := by
  cases chain with
  | nil =>
    unfold Deed.callAlong callAlong
    cases ht : i.target with
    | none => exact goes_pure _
    | some t =>
      intro s past
      obtain ⟨es, heq, hes, haccounts⟩ :=
        goes_obey h (.call t i.method i.arguments) s (past ++ [.reached t])
      refine ⟨.reached t :: es, ?_, .reached hes, .cons trivial haccounts⟩
      rw [List.append_assoc] at heq
      exact heq
  | cons e chain =>
    have hproceed (ss : List Source) (past : List Event) :=
      Play.alongside_proceedTo (h ss past i.target) (alongside_joinpoint h ss past) (e :: chain)
    simp only [← Invocation.proceed_eq] at hproceed
    exact (goes_play hproceed).bind fun r => goes_pure r.1

theorem goes_intercept (h : Watches host host') (n : Nat) (resolver : Resolver) (source : Source)
    (target : Option Target) (proxy : Value) (m : Method) (args : List Value) :
    Goes target (Deed.intercept host n resolver source target proxy m args)
      (intercept host' n resolver source target proxy m args) := by
  refine (goes_deed fun _ => supplied_edit _ _).bind fun r => ?_
  cases r with
  | error e => exact goes_pure _
  | ok chain =>
    exact (goes_callAlong h chain ⟨proxy, target, source.targetClass, m, args, [], 0, 0, false⟩).bind
      fun _ => goes_pure _

/-- A call from the acquisition of its target on. -/
theorem records_acquired (h : Watches host host') (n k : Nat) (resolver : Resolver) (source : Source)
    (proxy : Value) (m : Method) (args : List Value) :
    Records (Event.Bracketed k)
      (Deed.acquire k >>= fun
        | .error f => pure (.error f)
        | .ok target =>
          Deed.ensuring (Deed.intercept host n resolver source target proxy m args)
            (Deed.dispose k target))
      (acquire k >>= fun
        | .error f => pure (.error f)
        | .ok target =>
          ensuring (finishing (intercept host' n resolver source target proxy m args))
            (dispose k target)) := by
  let next (a : Outcome (Option Target)) (r : Except Abort (Outcome Value)) (es : List Event) : Prop :=
    Event.Bracketed k r (.acquired k a :: es)
  refine (Records.bind next (records_acquire k) fun a => ?_).mono ?_
  · cases a with
    | error f => exact records_pure _ .refused
    | ok target =>
      refine (records_ensuring (goes_intercept h n resolver source target proxy m args)
        (records_dispose k target)).mono ?_
      rintro r _ ⟨es, es', rfl, hduring, hdisposal⟩
      cases target with
      | none =>
        cases hdisposal
        exact .bare hduring
      | some t =>
        obtain ⟨outcome, rfl⟩ := hdisposal
        exact .held hduring
  · rintro r es (⟨a, es₁, es₂, rfl, ⟨outcome, ha, rfl⟩, hnext⟩ | ⟨e, -, outcome, h, -⟩)
    · cases ha
      exact hnext
    · cases h

theorem world_bind (k : World → Watch α) (w : Watching) :
    (deed Deed.world >>= k) w = k w.scene.world w := rfl

/-- Every call acquires its target from the source of its configuration, and gives it back. -/
theorem records_callThrough (h : Watches host host') {n : Nat} {c : Configuration} {s : Scene}
    (hc : s.world.configurations[n]? = some c) (past : List Event) (proxy : Value) (m : Method)
    (args : List Value) :
    Recorded (Event.Bracketed c.source) s.world.sources past (Deed.callThrough host n proxy m args s)
      (callThrough host' n proxy m args ⟨s, past⟩) := by
  have hrecorded := records_acquired h n c.source c.resolver (s.world.sourceOf c) proxy m args s past
  have hdeed : Deed.callThrough host n proxy m args s = (Deed.acquire c.source >>= fun
      | .error f => pure (.error f)
      | .ok target =>
        Deed.ensuring (Deed.intercept host n c.resolver (s.world.sourceOf c) target proxy m args)
          (Deed.dispose c.source target)) s := by
    simp only [Deed.callThrough, Deed.world_bind]
    rewrite [hc]
    rfl
  have hwatch : callThrough host' n proxy m args ⟨s, past⟩ = (acquire c.source >>= fun
      | .error f => pure (.error f)
      | .ok target =>
        ensuring (finishing (intercept host' n c.resolver (s.world.sourceOf c) target proxy m args))
          (dispose c.source target)) ⟨s, past⟩ := by
    simp only [callThrough, world_bind]
    rewrite [hc]
    rfl
  rw [hdeed, hwatch]
  exact hrecorded

theorem goes_callHandle (h : Watches host host') (o : ObjectRef) (m : Method) (args : List Value) :
    Goes target (Deed.callHandle host o m args) (callHandle host' o m args) := by
  refine (goes_deed fun _ => Deed.coincide_world).bind fun w => ?_
  cases w.handles[o.serial]? with
  | none => exact goes_pure _
  | some x =>
    dsimp only
    by_cases hm : x.plan.exposes m = true
    · rw [if_pos hm, if_pos hm]
      refine (goes_deed fun _ => supplied_refresh _).bind fun _ => ?_
      intro s past
      cases hc : s.world.configurations[x.configuration]? with
      | none =>
        -- there is no source to acquire a target from
        simp only [Deed.callThrough, callThrough, Deed.world_bind, world_bind, hc]
        exact goes_pure _ s past
      | some c =>
        obtain ⟨es, heq, hes, haccounts⟩ :=
          records_callThrough h hc past (.object (.handle o)) m args
        refine ⟨es, heq, ?_, haccounts⟩
        rw [← List.append_nil es]
        exact .call hes .nil
    · rw [if_neg hm, if_neg hm]
      exact goes_pure _

end

/-- Every command, whatever calls on handles do. -/
theorem goes_command {call : ObjectRef → Method → List Value → Deed (Outcome Value)}
    {call' : ObjectRef → Method → List Value → Watch (Outcome Value)}
    (h : ∀ o m args, Goes target (call o m args) (call' o m args)) (c : Command) :
    Goes target (Deed.command call c) (command call' c) := by
  cases c with
  | call receiver m args =>
    cases receiver with
    | bean o => exact goes_deed fun _ => supplied_callBean o m args
    | handle o => exact h o m args
  | swap n t =>
    intro s past
    exact ⟨[.swapped n t], rfl, .swapped .nil, .single trivial⟩
  | _ => exact goes_deed fun _ => Coincide.bind (.refl fun _ hs => hs) fun _ => .pure _

theorem agrees_reaction {ss : List Source} {past : List Event} {w : World} {w' : Watched}
    (h : Goes target d x) (hw : Kept ss past target w w') :
    (Deed.reaction d w).Agrees (Kept ss past target) (reaction x w') := by
  obtain ⟨es, rfl, hes, haccounts⟩ := hw
  obtain ⟨es', heq, hes', haccounts'⟩ := h ⟨w, []⟩ (past ++ es)
  unfold Deed.reaction reaction
  dsimp only
  rw [heq]
  rw [List.append_assoc]
  cases hd : d ⟨w, []⟩ with
  | ok a t =>
    rw [hd] at haccounts'
    exact ⟨rfl, rfl, es ++ es', rfl, hes'.append hes, haccounts.append haccounts'⟩
  | error e t =>
    rw [hd] at haccounts'
    exact ⟨rfl, rfl, es ++ es', rfl, hes'.append hes, haccounts.append haccounts'⟩

theorem watches_host (depth : Nat) : Watches (World.host depth) (host depth) := by
  induction depth with
  | zero =>
    intro ss past target
    refine ⟨fun c w w' hw => ?_, ?_⟩
    · exact agrees_reaction (goes_command (fun _ _ _ => goes_throw _) c) hw
    · rintro w _ ⟨es, rfl, -⟩
      rfl
  | succ depth ih =>
    intro ss past target
    refine ⟨fun c w w' hw => ?_, ?_⟩
    · exact agrees_reaction (goes_command (goes_callHandle ih) c) hw
    · rintro w _ ⟨es, rfl, -⟩
      rfl

/-- Calls are bracketed. Under watch a call through a configuration, from any source, along any chain and
with calls nested to any depth, does what it does anyway, and the events on its way account for all that
becomes of the sources. They are bracketed: the target is acquired once, and if there is one, it is given back
once and to its source, after the call has finished, with whatever result, and the result stands. In between
the call reaches that target and no other, and calls within it are bracketed likewise, so that at its end the
targets held are those that were held at its start, those acquired later having been given back earlier. -/
theorem callThrough_bracketed (depth : Nat) {n : Nat} {c : Configuration} {s : Scene}
    (hc : s.world.configurations[n]? = some c) (proxy : Value) (m : Method) (args : List Value) :
    ∃ es, callThrough (host depth) n proxy m args ⟨s, []⟩ =
        ending es (Deed.callThrough (World.host depth) n proxy m args s) ∧
      Event.Accounts s.world.sources es
        (stateOf (Deed.callThrough (World.host depth) n proxy m args s)).world.sources ∧
      Event.Bracketed c.source (outcomeOf (Deed.callThrough (World.host depth) n proxy m args s)) es ∧
      ∀ held, Event.holding held es = some held := by
  obtain ⟨es, heq, hes, haccounts⟩ := records_callThrough (watches_host depth) hc [] proxy m args
  exact ⟨es, heq, haccounts, hes, fun held => hes.holding held⟩

def postMethod : Method := ⟨"Ledger", "post", []⟩

def auditMethod : Method := ⟨"Ledger", "audit", []⟩

/-- Advice that calls the ledger again and then proceeds twice. -/
def auditing : Interceptor where
  name := "auditing"
  body := do
    let _ ← Routine.perform (Op.act (.command (.call (.handle ⟨0, "ledger"⟩) auditMethod [])))
    let _ ← Program.proceed
    Program.proceed

/-- A ledger from a source that takes nothing back. -/
def ledgerSource : CustomSource where
  targetClass := none
  isStatic := false
  acquire _ := ([], .ok (some (.bean ⟨0, "ledger"⟩)))
  release _ _ := ([], .error (.ofMessage "closed"))

def ledgerConfiguration : Configuration where
  advised := { cache := [(⟨none, postMethod⟩, [⟨auditing, none⟩]), (⟨none, auditMethod⟩, [])] }
  source := 0

def ledgerScene : Scene where
  world :=
    { beans := [fun _ _ _ _ => ⟨.ok .unit, [], 0⟩]
      sources := [.custom ledgerSource 0 0]
      configurations := [ledgerConfiguration]
      handles := [⟨⟨none, ["Ledger"]⟩, 0, none⟩] }

theorem ledger_bracketed :
    ledgerScene.world.configurations[0]? = some ledgerConfiguration ∧
      ∃ es, callThrough (host 1) 0 .unit postMethod [] ⟨ledgerScene, []⟩ =
          ending es (Deed.callThrough (World.host 1) 0 .unit postMethod [] ledgerScene) ∧
        Event.Bracketed 0 (outcomeOf (Deed.callThrough (World.host 1) 0 .unit postMethod [] ledgerScene))
          es := by
  obtain ⟨es, heq, -, hes, -⟩ := callThrough_bracketed 1 (s := ledgerScene) (n := 0)
    (c := ledgerConfiguration) rfl .unit postMethod []
  exact ⟨rfl, es, heq, hes⟩

example : (stateOf (callThrough (host 1) 0 .unit postMethod [] ⟨ledgerScene, []⟩)).events =
    let ledger : Target := .bean ⟨0, "ledger"⟩
    let release : Event := .released 0 ledger (.error (.ofMessage "closed"))
    [.acquired 0 (.ok (some ledger)), .acquired 0 (.ok (some ledger)), .reached ledger,
      .finished (.ok (.ok .unit)), release, .reached ledger, .reached ledger,
      .finished (.ok (.ok .unit)), release] := rfl

end Weaving.Watch
