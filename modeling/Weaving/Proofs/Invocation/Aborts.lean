import Weaving.Proofs.Invocation.Hosts
import Weaving.Proofs.Invocation.Observers
import Weaving.Proofs.Pointcut.Algebra
import Weaving.Proofs.Resolution

/-! What aborts an invocation. A matcher whose leaves answer is asked about arguments without harm however
it is composed, and a resolved chain asks only runtime matchers. So if the matchers of the advisors
answer, nothing that the interceptors do aborts an invocation, unless the world around it does. -/
namespace Weaving

section Confined

variable {ε σ α β : Type} {P : σ → Prop} {E : ε → Prop} {x : EStateM ε σ α} {f : α → EStateM ε σ β}

/-- From states with a property a computation leaves such states, and it is aborted only as expected. -/
def Confined (P : σ → Prop) (E : ε → Prop) (x : EStateM ε σ α) : Prop :=
  ∀ s, P s → P (stateOf (x s)) ∧ ∀ e, outcomeOf (x s) = .error e → E e

namespace Confined

/-- A computation that always comes to an end keeps the property. -/
theorem of_ok (h : ∀ s, P s → ∃ a t, x s = .ok a t ∧ P t) : Confined P E x := by
  intro s hs
  obtain ⟨a, t, hx, ht⟩ := h s hs
  rw [hx]
  exact ⟨ht, nofun⟩

theorem pure (a : α) : Confined P E (Pure.pure a : EStateM ε σ α) :=
  of_ok fun s hs => ⟨a, s, rfl, hs⟩

theorem throw {e : ε} (he : E e) : Confined P E (MonadExcept.throw e : EStateM ε σ α) := by
  refine fun s hs => ⟨hs, ?_⟩
  rintro _ ⟨⟩
  exact he

/-- What comes next need be confined only for what may come before. -/
theorem bind_of (hx : Confined P E x)
    (hf : ∀ s a t, P s → x s = .ok a t → Confined P E (f a)) : Confined P E (x >>= f) := by
  intro s hs
  obtain ⟨hstate, haborts⟩ := hx s hs
  cases hr : x s with
  | ok a t =>
    rw [hr] at hstate
    rw [bind_of_ok hr]
    exact hf s a t hs hr t hstate
  | error e t =>
    rw [hr] at hstate haborts
    rw [bind_of_error hr]
    refine ⟨hstate, ?_⟩
    rintro _ ⟨⟩
    exact haborts e rfl

theorem bind (hx : Confined P E x) (hf : ∀ a, Confined P E (f a)) : Confined P E (x >>= f) :=
  hx.bind_of fun _ a _ _ _ => hf a

theorem run {Op : Type} {Reply : Op → Type} {meaning : (op : Op) → EStateM ε σ (Reply op)}
    (h : ∀ op, Confined P E (meaning op)) (p : Routine Op Reply α) : Confined P E (p.run meaning) := by
  induction p with
  | done a => exact pure a
  | step op next ih => exact (h op).bind ih

end Confined
end Confined

/-- If the advisor has a pointcut, the leaves of its matcher answer. -/
def Advisor.Answers (a : Advisor) : Prop :=
  ∀ p advice, a.role = .pointcut p advice → p.methodMatcher.Answers

namespace Chain

/-- Every element of the chain answers. -/
def Answers (chain : Chain) : Prop := ∀ e ∈ chain, e.Answers

/-- Only runtime matchers are carried into a chain. -/
theorem answers_of_match? {a b : Advisor} {m : Method} {c : Class} {introductions : Bool}
    {condition : Option MethodMatcher} (ha : a.Answers)
    (h : match? m c introductions a = some (b, condition)) :
    ∀ x ∈ condition, x.Answers ∧ x.isRuntime = true := by
  rintro x hx
  unfold match? at h
  cases hrole : a.role with
  | introduction i =>
    simp only [hrole, Option.ite_none_right_eq_some, Option.some.injEq, Prod.mk.injEq] at h
    obtain ⟨-, -, rfl⟩ := h
    contradiction
  | pointcut p advice =>
    simp only [hrole, Option.ite_none_right_eq_some, Option.some.injEq, Prod.mk.injEq] at h
    obtain ⟨-, -, rfl⟩ := h
    rw [Option.mem_def, Option.ite_none_right_eq_some, Option.some.injEq] at hx
    obtain ⟨hr, rfl⟩ := hx
    exact ⟨ha p advice hrole, hr⟩

theorem answers_of_resolve {adapters : Adapters} {as : List Advisor} {m : Method} {c : Option Class}
    {r : Resolution} (has : ∀ a ∈ as, a.Answers) (h : (resolve adapters as m c).1 = .ok r) :
    r.chain.Answers := by
  intro e he i
  obtain ⟨⟨a, condition⟩, hx, hcondition⟩ := exists_match_of_mem_resolve h he
  obtain ⟨ha, hmatch⟩ := mem_matched.mp hx
  have hanswers := answers_of_match? (has a ha) hmatch
  unfold Element.admits
  rw [hcondition]
  cases condition with
  | none => exact ⟨true, rfl⟩
  | some x =>
    obtain ⟨hx, hr⟩ := hanswers x rfl
    obtain ⟨u, hu⟩ := hx.acceptsArgs_ok i.method i.targetClass i.arguments
    exact ⟨u, hu hr⟩

end Chain

/-- In worlds with a property the host leaves such worlds, and it aborts commands only as expected. -/
structure Host.Confined {ω : Type} (P : ω → Prop) (E : Abort → Prop) (host : Host ω) : Prop where
  world : ∀ c w, P w → P (host.obey c w).world
  aborts : ∀ c w a, P w → (host.obey c w).result = .error a → E a

namespace Play

variable {ω α : Type} {P : ω → Prop} {E : Abort → Prop} {host : Host ω}

theorem confined_invocation : Confined (Amid P) E (Play.invocation : Play ω Invocation) :=
  .of_ok fun s hs => ⟨s.invocation, s, rfl, hs⟩

theorem confined_modifyInvocation (f : Invocation → Invocation) :
    Confined (Amid P) E (Play.modifyInvocation f : Play ω Unit) :=
  .of_ok fun s hs => ⟨(), { s with invocation := f s.invocation }, rfl, hs⟩

theorem confined_command (h : host.Confined P E) (c : Command) :
    Confined (Amid P) E (Play.command host c) := by
  intro s hs
  have hworld := h.world c s.world hs
  have haborts := h.aborts c s.world
  unfold Play.command
  dsimp only
  cases hr : (host.obey c s.world).result with
  | ok o => exact ⟨hworld, nofun⟩
  | error a =>
    refine ⟨hworld, ?_⟩
    rintro _ ⟨⟩
    exact haborts a hs hr

theorem confined_act (h : host.Confined P E) (length : Nat) (a : Act) :
    Confined (Amid P) E (a.run host length) := by
  cases a with
  | look => exact confined_invocation.bind fun _ => .pure _
  | locate => exact confined_invocation.bind fun _ => .pure _
  | clock => exact .of_ok fun s hs => ⟨host.clock s.world, s, rfl, hs⟩
  | note e => exact .of_ok fun s hs => ⟨(), { s with journal := s.journal ++ [e] }, rfl, hs⟩
  | command c => exact confined_command h c

/-- What an interceptor does is confined if proceeding is, however often it proceeds or lets copies proceed. -/
theorem confined_operation (h : host.Confined P E) (length : Nat) {down : Play ω (Outcome Value)}
    (hdown : Confined (Amid P) E down) (op : Op) :
    Confined (Amid P) E (op.run host length down) := by
  cases op with
  | act a => exact confined_act h length a
  | setArguments vs => exact confined_modifyInvocation (·.setArguments vs)
  | setArgument n v =>
    exact confined_invocation.bind fun _ => (confined_modifyInvocation _).bind fun _ => .pure _
  | setAttribute key v => exact confined_modifyInvocation (·.setAttribute key v)
  | removeAttribute key =>
    exact confined_invocation.bind fun _ => (confined_modifyInvocation _).bind fun _ => .pure _
  | proceed => exact hdown
  | fork c =>
    refine confined_invocation.bind fun held => (confined_modifyInvocation _).bind fun _ => ?_
    refine hdown.bind fun outcome => confined_invocation.bind fun copy => ?_
    exact (confined_modifyInvocation _).bind fun _ => .pure _

theorem confined_outermost {inner : Play ω (Outcome Value)} (hinner : Confined (Amid P) E inner) :
    Confined (Amid P) E (Invocation.outermost inner) := by
  refine confined_invocation.bind fun i => ?_
  split
  · exact .pure _
  · refine (confined_modifyInvocation _).bind fun _ => hinner.bind fun outcome => ?_
    exact (confined_modifyInvocation _).bind fun _ => .pure _

theorem confined_joinpoint (h : host.Confined P E) :
    Confined (Amid P) E (Invocation.joinpoint host) := by
  refine confined_invocation.bind fun i => ?_
  cases i.target with
  | some t => exact confined_command h _
  | none => exact .pure _

theorem confined_advance (h : host.Confined P E) {chain : Chain} (hchain : chain.Answers) (n : Nat) :
    Confined (Amid P) E (Invocation.advance host chain n) := by
  induction n with
  | zero => exact confined_joinpoint h
  | succ n ih =>
    refine confined_invocation.bind fun i => ?_
    cases he : chain[i.cursor]? with
    | none =>
      simp only [he]
      exact confined_joinpoint h
    | some e =>
      simp only [he]
      refine (confined_modifyInvocation _).bind fun _ => confined_invocation.bind fun j => ?_
      obtain ⟨admitted, hadmits⟩ := hchain e (List.mem_of_getElem? he) j
      simp only [hadmits]
      have hback (outcome : Outcome Value) := (confined_modifyInvocation (P := P) (E := E)
        fun j => { j with cursor := i.cursor }).bind fun _ => .pure outcome
      cases admitted with
      | true => exact (Confined.run (confined_operation h _ (confined_outermost ih)) _).bind hback
      | false => exact ih.bind hback

theorem confined_proceed (h : host.Confined P E) {chain : Chain} (hchain : chain.Answers) :
    Confined (Amid P) E (Invocation.proceed host chain) :=
  confined_outermost (confined_advance h hchain _)

end Play

/-- If all elements of a chain answer, what aborts an invocation is an abort of the world. -/
theorem Chain.Answers.aborted_by_host {ω : Type} {host : Host ω} {chain : Chain} (h : chain.Answers)
    {s : Stage ω} {a : Abort} (hs : outcomeOf (Invocation.proceed host chain s) = .error a) :
    ∃ c w, (host.obey c w).result = .error a := by
  have hhost : host.Confined (fun _ => True) fun a => ∃ c w, (host.obey c w).result = .error a :=
    ⟨fun _ _ _ => trivial, fun c w _ _ hr => ⟨c, w, hr⟩⟩
  exact ((Play.confined_proceed hhost h) s trivial).2 a hs

end Weaving
