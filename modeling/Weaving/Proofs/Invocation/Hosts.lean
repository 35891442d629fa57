import Weaving.Invocation.Proceed
import Weaving.Proofs.Simulation

/-! Invocations under two hosts, which may have worlds of different kinds. If the hosts obey every command
alike in related worlds, and leave related worlds, then an invocation does the same under both, whatever its
interceptors do and whatever stands at the end of the chain. Its target is the same all the way. -/
namespace Weaving

variable {ω υ : Type}

/-- The same answer and the same entries, in worlds that are related. -/
structure Reaction.Agrees {α : Type} (R : ω → υ → Prop) (r : Reaction ω α) (r' : Reaction υ α) : Prop where
  result : r.result = r'.result
  entries : r.entries = r'.entries
  world : R r.world r'.world

/-- In related worlds both hosts obey alike, and leave related worlds. -/
structure Host.Simulates (R : ω → υ → Prop) (host : Host ω) (host' : Host υ) : Prop where
  obey : ∀ c w w', R w w' → (host.obey c w).Agrees R (host'.obey c w')
  clock : ∀ w w', R w w' → host.clock w = host'.clock w'

/-- In worlds with a property both hosts obey alike, and keep the property. -/
structure Host.Coincide (P : ω → Prop) (host host' : Host ω) : Prop where
  obey : ∀ c w, P w → host.obey c w = host'.obey c w ∧ P (host.obey c w).world
  clock : host.clock = host'.clock

namespace Host.Coincide

variable {P : ω → Prop} {host host' : Host ω}

theorem left (h : Host.Coincide P host host') : Host.Coincide P host host :=
  ⟨fun c w hw => ⟨rfl, (h.obey c w hw).2⟩, rfl⟩

theorem simulates (h : Host.Coincide P host host') : Host.Simulates (Shared P) host host' where
  obey := by
    rintro c w _ ⟨rfl, hw⟩
    obtain ⟨heq, hp⟩ := h.obey c w hw
    exact ⟨congrArg _ heq, congrArg _ heq, congrArg _ heq, hp⟩
  clock := by
    rintro w _ ⟨rfl, -⟩
    rw [h.clock]

end Host.Coincide

namespace Invocation

/-- Carries out the chain from the cursor on, with a goal of any kind at its end. -/
def advanceTo (host : Host ω) (goal : Play ω (Outcome Value)) (chain : List Element) :
    Nat → Play ω (Outcome Value)
  | 0 => goal
  | n + 1 => do
    let position := (← Play.invocation).cursor
    match chain[position]? with
    | none => goal
    | some e =>
      Play.modifyInvocation fun i => { i with cursor := position + 1 }
      match e.admits (← Play.invocation) with
      | .error a => throw a
      | .ok admitted =>
        let outcome ←
          if admitted then
            e.interceptor.body.run host chain.length (outermost (advanceTo host goal chain n))
          else advanceTo host goal chain n
        Play.modifyInvocation fun i => { i with cursor := position }
        return outcome

/-- Lets an invocation proceed along its chain to a goal. -/
def proceedTo (host : Host ω) (goal : Play ω (Outcome Value)) (chain : List Element) :
    Play ω (Outcome Value) :=
  outermost (advanceTo host goal chain chain.length)

theorem advance_eq (host : Host ω) (chain : List Element) (n : Nat) :
    advance host chain n = advanceTo host (joinpoint host) chain n := by
  induction n with
  | zero => rfl
  | succ n ih =>
    unfold advance advanceTo
    rewrite [ih]
    rfl

theorem proceed_eq (host : Host ω) (chain : List Element) :
    proceed host chain = proceedTo host (joinpoint host) chain :=
  congrArg outermost (advance_eq host chain chain.length)

end Invocation

namespace Play

/-- Two stages with the same invocation, of a target, and the same journal, in worlds that are related. -/
structure Beside (R : ω → υ → Prop) (target : Option Target) (s : Stage ω) (s' : Stage υ) : Prop where
  invocation : s.invocation = s'.invocation
  target : s.invocation.target = target
  journal : s.journal = s'.journal
  world : R s.world s'.world

variable {R : ω → υ → Prop} {target : Option Target} {host : Host ω} {host' : Host υ} {α : Type}

/-- Two plays do the same beside each other. -/
abbrev Alongside (R : ω → υ → Prop) (target : Option Target) (x : Play ω α) (y : Play υ α) : Prop :=
  Simulates (Beside R target) (Beside R target) (Beside R target) x y

theorem alongside_pure (a : α) : Alongside R target (pure a : Play ω α) (pure a : Play υ α) :=
  Simulates.pure a fun _ _ h => h

/-- Both plays look at one invocation. -/
theorem alongside_invocation {f : Invocation → Play ω α} {g : Invocation → Play υ α}
    (h : ∀ i, i.target = target → Alongside R target (f i) (g i)) :
    Alongside R target (Play.invocation >>= f) (Play.invocation >>= g) := by
  intro s s' hs
  have hfg := h s.invocation hs.target s s' hs
  change Paired _ _ (f s.invocation s) (g s'.invocation s')
  rwa [← hs.invocation]

theorem alongside_modifyInvocation {f : Invocation → Invocation}
    (hf : ∀ i, i.target = target → (f i).target = target) :
    Alongside R target (Play.modifyInvocation f : Play ω Unit) (Play.modifyInvocation f : Play υ Unit) :=
  fun _ _ hs => .ok ⟨congrArg f hs.invocation, hf _ hs.target, hs.journal, hs.world⟩

theorem alongside_command (h : Host.Simulates R host host') (c : Command) :
    Alongside R target (Play.command host c) (Play.command host' c) := by
  intro s s' hs
  have hobey := h.obey c _ _ hs.world
  have hafter : Beside R target
      { s with world := (host.obey c s.world).world, journal := s.journal ++ (host.obey c s.world).entries }
      { s' with
        world := (host'.obey c s'.world).world
        journal := s'.journal ++ (host'.obey c s'.world).entries } :=
    ⟨hs.invocation, hs.target, by rw [hs.journal, hobey.entries], hobey.world⟩
  unfold Play.command
  dsimp only
  rw [← hobey.result]
  cases (host.obey c s.world).result with
  | ok o => exact .ok hafter
  | error a => exact .error hafter

theorem alongside_act (h : Host.Simulates R host host') (length : Nat) (a : Act) :
    Alongside R target (a.run host length) (a.run host' length) := by
  cases a with
  | look => exact alongside_invocation fun _ _ => alongside_pure _
  | locate => exact alongside_invocation fun _ _ => alongside_pure _
  | clock =>
    intro s s' hs
    change Paired _ _ (.ok (host.clock s.world) s) (.ok (host'.clock s'.world) s')
    rw [h.clock _ _ hs.world]
    exact .ok hs
  | note e =>
    exact fun s s' hs => .ok ⟨hs.invocation, hs.target, congrArg (· ++ [e]) hs.journal, hs.world⟩
  | command c => exact alongside_command h c

theorem alongside_operation (h : Host.Simulates R host host') (length : Nat)
    {down : Play ω (Outcome Value)} {down' : Play υ (Outcome Value)}
    (hdown : Alongside R target down down') (op : Op) :
    Alongside R target (op.run host length down) (op.run host' length down') := by
  cases op with
  | act a => exact alongside_act h length a
  | setArguments vs => exact alongside_modifyInvocation (f := (·.setArguments vs)) fun _ hi => hi
  | setArgument n v =>
    refine alongside_invocation fun i hi => ?_
    exact (alongside_modifyInvocation fun _ _ => by exact hi).bind fun _ => alongside_pure _
  | setAttribute key v => exact alongside_modifyInvocation (f := (·.setAttribute key v)) fun _ hi => hi
  | removeAttribute key =>
    refine alongside_invocation fun i hi => ?_
    exact (alongside_modifyInvocation fun _ _ => by exact hi).bind fun _ => alongside_pure _
  | proceed => exact hdown
  | fork c =>
    refine alongside_invocation fun held hheld => ?_
    refine (alongside_modifyInvocation fun _ hi => by exact hi).bind fun _ => hdown.bind fun _ => ?_
    refine alongside_invocation fun copy _ => ?_
    exact (alongside_modifyInvocation fun _ _ => hheld).bind fun _ => alongside_pure _

theorem alongside_outermost {inner : Play ω (Outcome Value)} {inner' : Play υ (Outcome Value)}
    (hinner : Alongside R target inner inner') :
    Alongside R target (Invocation.outermost inner) (Invocation.outermost inner') := by
  refine alongside_invocation fun i _ => ?_
  by_cases h : i.depth = 0 ∧ i.completed = true
  · simp only [h, and_self, if_true]
    exact alongside_pure _
  · simp only [h, if_false]
    refine (alongside_modifyInvocation fun _ hi => by exact hi).bind fun _ => hinner.bind fun _ => ?_
    exact (alongside_modifyInvocation fun _ hi => by exact hi).bind fun _ => alongside_pure _

theorem alongside_joinpoint (h : Host.Simulates R host host') :
    Alongside R target (Invocation.joinpoint host) (Invocation.joinpoint host') := by
  refine alongside_invocation fun i _ => ?_
  cases i.target with
  | some t => exact alongside_command h _
  | none => exact alongside_pure _

variable {goal : Play ω (Outcome Value)} {goal' : Play υ (Outcome Value)}

theorem alongside_advanceTo (h : Host.Simulates R host host') (hgoal : Alongside R target goal goal')
    (chain : List Element) (n : Nat) :
    Alongside R target (Invocation.advanceTo host goal chain n)
      (Invocation.advanceTo host' goal' chain n) := by
  induction n with
  | zero => exact hgoal
  | succ n ih =>
    refine alongside_invocation fun i _ => ?_
    cases hi : chain[i.cursor]? with
    | none =>
      simp only [hi]
      exact hgoal
    | some e =>
      simp only [hi]
      refine (alongside_modifyInvocation fun _ hi => by exact hi).bind fun _ => alongside_invocation fun j _ => ?_
      have hback (outcome : Outcome Value) := (alongside_modifyInvocation (R := R)
        (f := fun j => { j with cursor := i.cursor }) fun _ (hj : _ = target) => hj).bind
          fun _ => alongside_pure outcome
      obtain a | _ | _ := e.admits j
      · exact Simulates.throw a fun _ _ hs => hs
      · exact ih.bind hback
      · exact (Simulates.run (alongside_operation h _ (alongside_outermost ih)) _).bind hback

theorem alongside_proceedTo (h : Host.Simulates R host host') (hgoal : Alongside R target goal goal')
    (chain : List Element) :
    Alongside R target (Invocation.proceedTo host goal chain) (Invocation.proceedTo host' goal' chain) :=
  alongside_outermost (alongside_advanceTo h hgoal chain _)

variable {P : ω → Prop}

/-- The world on the stage has a property. -/
def Amid (P : ω → Prop) (s : Stage ω) : Prop := P s.world

theorem Beside.shared {s s' : Stage ω} (h : Beside (Shared P) target s s') : Shared (Amid P) s s' := by
  obtain ⟨hinvocation, -, hjournal, hworld, hp⟩ := h
  refine ⟨?_, hp⟩
  cases s
  cases s'
  simp_all

theorem coincide_proceed {host host' : Host ω} (h : Host.Coincide P host host') (chain : List Element) :
    Coincide (Amid P) (Invocation.proceed host chain) (Invocation.proceed host' chain) := by
  rw [Invocation.proceed_eq, Invocation.proceed_eq]
  rintro s _ ⟨rfl, hs⟩
  have hbeside : Beside (Shared P) s.invocation.target s s := ⟨rfl, rfl, rfl, rfl, hs⟩
  have hgoal : Alongside (Shared P) s.invocation.target (Invocation.joinpoint host)
      (Invocation.joinpoint host') := alongside_joinpoint h.simulates
  exact (alongside_proceedTo h.simulates hgoal chain s s hbeside).mono (fun _ _ => Beside.shared) fun _ _ => Beside.shared

end Play
end Weaving
