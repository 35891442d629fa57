import Weaving.Proofs.Invocation.Hosts
import Weaving.Proofs.Invocation.Observers

/-! Interceptors that hand on what proceeding gave them last. Along a chain of them a call comes to what its
target answers, if the target answers every time alike. The commands that are given on the way are noted, each
with the world in which it was given, since that is where the answers are. -/
namespace Weaving

variable {ω α β : Type}

/-- A world, and the commands that have been given on the way to it. -/
structure Noted (ω : Type) where
  world : ω
  given : List (Command × ω)

/-- The host that notes the commands given to it. -/
def Host.noting (host : Host ω) : Host (Noted ω) where
  obey c w :=
    let r := host.obey c w.world
    { result := r.result, world := ⟨r.world, w.given ++ [(c, w.world)]⟩, entries := r.entries }
  clock w := host.clock w.world

theorem Host.noting_simulates (host : Host ω) :
    Host.Simulates (fun w w' => w = Noted.world w') host host.noting where
  obey := by rintro c _ w rfl; exact ⟨rfl, rfl, rfl⟩
  clock := by rintro _ w rfl; rfl

/-- The commands given while an invocation proceeds, by its interceptors or as a call of its target. -/
def Invocation.given (host : Host ω) (chain : Chain) (s : Stage ω) : List (Command × ω) :=
  (stateOf (proceed host.noting chain ⟨s.invocation, ⟨s.world, []⟩, s.journal⟩)).world.given

/-- The program ends with what proceeding gave it last. It may count what a copy came to as well. -/
inductive Program.HandsOn : Option (Outcome Value) → Program (Outcome Value) → Prop
  | done (o : Outcome Value) : HandsOn (some o) (.done o)
  | proceed {last : Option (Outcome Value)} {next : Outcome Value → Program (Outcome Value)}
      (rest : ∀ o, HandsOn (some o) (next o)) : HandsOn last (.step .proceed next)
  | fork {last : Option (Outcome Value)} {copy : Copy} {next : Outcome Value × Copy → Program (Outcome Value)}
      (fresh : copy.completed = false) (rest : ∀ r, HandsOn (some r.1) (next r)) :
      HandsOn last (.step (.fork copy) next)
  | step {last : Option (Outcome Value)} {op : Op} {next : op.Reply → Program (Outcome Value)}
      (hop : op ≠ .proceed) (rest : ∀ r, HandsOn last (next r)) : HandsOn last (.step op next)

/-- The interceptors of a chain hand on what proceeding gives them last. -/
def Chain.HandsOn (chain : Chain) : Prop := ∀ e ∈ chain, e.interceptor.body.HandsOn none ∧ e.Answers

namespace Nesting

/-- Of the commands given so far, one is not as it should be. -/
def Amiss (good : Command × ω → Prop) (c : Carried (Noted ω)) : Prop := ¬ ∀ p ∈ c.world.given, good p

/-- The course ends with a value that has a property, if the commands given are as they should be. -/
def Delivers (good : Command × ω → Prop) (Q : α → Prop) (x : Course (Noted ω) α) : Prop :=
  ∀ c, (∀ p ∈ (stateOf (x c)).world.given, good p) → ∃ a d, x c = .ok a d ∧ Q a

/-- Once something is amiss it remains so. -/
abbrev Lingers (good : Command × ω → Prop) (x : Course (Noted ω) α) : Prop := Coincide (Amiss good) x x

variable {good : Command × ω → Prop} {host : Host ω} {call : Call} {length k : Nat}
  {rest : Course (Noted ω) (Outcome Value)}

theorem lingers_get {f : Carried (Noted ω) → Course (Noted ω) α}
    (h : ∀ c, Amiss good c → Lingers good (f c)) : Lingers good (get >>= f) :=
  .refl fun c hc => (h c hc).keeps hc

theorem lingers_set {c : Carried (Noted ω)} (hc : Amiss good c) :
    Lingers good (set c : Course (Noted ω) PUnit) := .refl fun _ _ => hc

theorem given_command (c : Command) (s : Carried (Noted ω)) :
    (stateOf (command Execution.unsigned host.noting c s)).world.given =
      s.world.given ++ [(c, s.world.world)] := by
  unfold command
  dsimp only
  cases (host.noting.obey c s.world).result <;> rfl

theorem lingers_command (c : Command) : Lingers good (command Execution.unsigned host.noting c) := by
  refine .refl fun s hs hlater => hs fun p hp => hlater p ?_
  rw [given_command]
  exact List.mem_append_left _ hp

theorem lingers_act (a : Act) : Lingers good (act Execution.unsigned host.noting call length k a) := by
  cases a with
  | command c => exact lingers_command c
  | _ => exact .refl fun _ hs => hs

theorem lingers_fork (h : Lingers good rest) (copy : Copy) : Lingers good (fork call rest copy) := by
  unfold fork
  split
  · exact .pure _
  · refine lingers_get fun c hc => Coincide.bind (lingers_set (by exact hc)) fun _ => h.bind fun o => ?_
    exact lingers_get fun d hd => Coincide.bind (lingers_set (by exact hd)) fun _ => .pure _

theorem lingers_operation (h : Lingers good rest) (op : Op) :
    Lingers good (operation Execution.unsigned host.noting call length k rest op) := by
  cases op with
  | act a => exact lingers_act a
  | proceed => exact h
  | fork copy => exact lingers_fork h copy
  | _ => exact .refl fun _ hs => hs

theorem lingers_target : Lingers good (target Execution.unsigned host.noting call) := by
  unfold target
  cases call.target with
  | none => exact .pure _
  | some t => exact lingers_get fun c _ => lingers_command _

theorem lingers_run (chain : Chain) :
    Lingers good (run Execution.unsigned host.noting call length k chain) := by
  induction chain generalizing k with
  | nil => exact lingers_target
  | cons e chain ih =>
    rw [run_cons]
    refine lingers_get fun c _ => ?_
    obtain a | _ | _ := admits call e c.arguments
    · exact .throw a
    · exact ih
    · exact Coincide.run (lingers_operation ih) _

theorem Delivers.pure {Q : α → Prop} {a : α} (h : Q a) :
    Delivers good Q (Pure.pure a : Course (Noted ω) α) := fun c _ => ⟨a, c, rfl, h⟩

theorem Delivers.mono {Q Q' : α → Prop} {x : Course (Noted ω) α} (h : Delivers good Q x)
    (hQ : ∀ a, Q a → Q' a) : Delivers good Q' x := by
  intro c hc
  obtain ⟨a, d, hx, ha⟩ := h c hc
  exact ⟨a, d, hx, hQ a ha⟩

theorem Delivers.get {Q : β → Prop} {f : Carried (Noted ω) → Course (Noted ω) β}
    (h : ∀ c, Delivers good Q (f c)) : Delivers good Q (MonadState.get >>= f) := fun c => h c c

/-- If nothing is amiss at the end, then nothing was when the first part ended. -/
theorem Delivers.bind {Q : α → Prop} {Q' : β → Prop} {x : Course (Noted ω) α}
    {f : α → Course (Noted ω) β} (h : Delivers good Q x) (hlingers : ∀ a, Lingers good (f a))
    (hf : ∀ a, Q a → Delivers good Q' (f a)) : Delivers good Q' (x >>= f) := by
  intro c hc
  cases hx : x c with
  | ok a d =>
    rw [bind_of_ok hx] at hc ⊢
    have hd : ∀ p ∈ d.world.given, good p :=
      Classical.byContradiction fun hamiss => (hlingers a).keeps hamiss hc
    obtain ⟨a', d', hx', ha⟩ := h c (by rwa [hx])
    cases hx.symm.trans hx'
    exact hf a ha d hc
  | error e d =>
    rw [bind_of_error hx] at hc
    obtain ⟨a', d', hx', -⟩ := h c (by rwa [hx])
    cases hx.symm.trans hx'

theorem delivers_set (c : Carried (Noted ω)) :
    Delivers good (fun _ => True) (set c : Course (Noted ω) PUnit) := fun _ _ => ⟨_, _, rfl, trivial⟩

/-- The command given in a world is not aborted, and if it is a call of the target, it gives the value. -/
def Answered (host : Host ω) (t : Target) (m : Method) (v : Value) (p : Command × ω) : Prop :=
  ∃ o, (host.obey p.1 p.2).result = .ok o ∧ ∀ args, p.1 = .call t m args → o = .ok v

variable {t : Target} {v : Value}

theorem delivers_command (c : Command) :
    Delivers (Answered host t call.method v) (fun o => ∀ args, c = .call t call.method args → o = .ok v)
      (command Execution.unsigned host.noting c) := by
  intro s hs
  have hgood : Answered host t call.method v (c, s.world.world) := by
    refine hs _ ?_
    rw [given_command]
    exact List.mem_append_right _ List.mem_cons_self
  obtain ⟨o, ho, hv⟩ := hgood
  have hresult : (host.noting.obey c s.world).result = .ok o := ho
  unfold command
  dsimp only
  rw [hresult]
  exact ⟨o, _, rfl, hv⟩

theorem delivers_target (ht : call.target = some t) :
    Delivers (Answered host t call.method v) (· = .ok v) (target Execution.unsigned host.noting call) := by
  unfold target
  rw [ht]
  exact .get fun c => (delivers_command _).mono fun o ho => ho _ rfl

/-- What a copy that has not completed comes to is what the rest of the chain gives. -/
theorem delivers_fork {Q : Outcome Value → Prop} (h : Delivers good Q rest) (hlingers : Lingers good rest)
    {copy : Copy} (fresh : copy.completed = false) :
    Delivers good (fun r => Q r.1) (fork call rest copy) := by
  have hback (c : Carried (Noted ω)) (o : Outcome Value) : Lingers good (get >>= fun d =>
      set { d with arguments := c.arguments, attributes := c.attributes } >>= fun _ =>
        pure (o, (⟨d.arguments, d.attributes, true⟩ : Copy))) :=
    lingers_get fun d hd => Coincide.bind (lingers_set (by exact hd)) fun _ => .pure _
  unfold fork
  rw [if_neg (by simp [fresh])]
  refine .get fun c => (delivers_set _).bind (fun _ => hlingers.bind fun o => hback c o) fun _ _ => ?_
  exact h.bind (hback c) fun o ho d _ => ⟨_, _, rfl, ho⟩

/-- Besides proceeding, nothing that an interceptor does is aborted unless a command is. -/
theorem delivers_operation (hrest : Delivers (Answered host t call.method v) (· = .ok v) rest)
    (hlingers : Lingers (Answered host t call.method v) rest) {op : Op} (hop : op ≠ .proceed) :
    Delivers (Answered host t call.method v) (fun _ => True)
      (operation Execution.unsigned host.noting call length k rest op) := by
  cases op with
  | act a =>
    cases a with
    | command c => exact (delivers_command c).mono fun _ _ => trivial
    | _ => exact fun c _ => ⟨_, _, rfl, trivial⟩
  | proceed => contradiction
  | fork copy =>
    cases hcopy : copy.completed with
    | false => exact (delivers_fork hrest hlingers hcopy).mono fun _ _ => trivial
    | true =>
      change Delivers _ _ (fork call rest copy)
      unfold fork
      rw [if_pos hcopy]
      exact .pure trivial
  | _ => exact fun c _ => ⟨_, _, rfl, trivial⟩

/-- What was last come to by proceeding is the value, and it is handed on. -/
theorem delivers_handsOn (hrest : Delivers (Answered host t call.method v) (· = .ok v) rest)
    (hlingers : Lingers (Answered host t call.method v) rest) {last : Option (Outcome Value)}
    {p : Program (Outcome Value)} (hp : p.HandsOn last) (hlast : ∀ o ∈ last, o = .ok v) :
    Delivers (Answered host t call.method v) (· = .ok v)
      (Routine.run (operation Execution.unsigned host.noting call length k rest) p) := by
  have hlater (p : Program (Outcome Value)) : Lingers (Answered host t call.method v)
      (Routine.run (operation Execution.unsigned host.noting call length k rest) p) :=
    Coincide.run (lingers_operation hlingers) p
  induction hp with
  | done o => exact .pure (hlast o rfl)
  | proceed _ ih =>
    refine hrest.bind (fun o => hlater _) fun o ho => ih o ?_
    rintro _ ⟨⟩
    exact ho
  | fork fresh _ ih =>
    refine (delivers_fork hrest hlingers fresh).bind (fun r => hlater _) fun r hr => ih r ?_
    rintro _ ⟨⟩
    exact hr
  | step hop _ ih =>
    exact (delivers_operation hrest hlingers hop).bind (fun r => hlater _) fun r _ => ih r hlast

theorem delivers_run (ht : call.target = some t) {chain : Chain} (hchain : chain.HandsOn) :
    Delivers (Answered host t call.method v) (· = .ok v)
      (run Execution.unsigned host.noting call length k chain) := by
  induction chain generalizing k with
  | nil => exact delivers_target ht
  | cons e chain ih =>
    have hrest := @ih (k + 1) fun e he => hchain e (List.mem_cons_of_mem _ he)
    obtain ⟨hbody, hanswers⟩ := hchain e List.mem_cons_self
    rw [run_cons]
    refine .get fun c => ?_
    obtain ⟨admitted, ha⟩ := exists_admits hanswers call c.arguments
    rw [ha]
    cases admitted with
    | false => exact hrest
    | true => exact delivers_handsOn hrest (lingers_run chain) hbody nofun

end Nesting

namespace Invocation

open Nesting

variable {host : Host ω} {chain : Chain} {call : Call} {t : Target} {v : Value}

/-- Noting changes nothing. -/
theorem proceed_noting (host : Host ω) (chain : Chain) (s : Stage ω) :
    Paired (Play.Beside (fun w w' => w = Noted.world w') s.invocation.target)
      (Play.Beside (fun w w' => w = Noted.world w') s.invocation.target) (proceed host chain s)
      (proceed host.noting chain ⟨s.invocation, ⟨s.world, []⟩, s.journal⟩) := by
  rw [proceed_eq, proceed_eq]
  exact Play.alongside_proceedTo host.noting_simulates (Play.alongside_joinpoint host.noting_simulates) chain
    _ _ ⟨rfl, rfl, rfl, rfl⟩

/-- The commands given are those that are given as the chain runs as a nested composition. -/
theorem given_eq (host : Host ω) (chain : Chain) (call : Call) (c : Carried ω) :
    given host chain (c.stage call ⟨0, 0, false⟩) =
      (stateOf (onward host.noting call chain 0
        ⟨c.arguments, c.attributes, ⟨c.world, []⟩, c.journal⟩)).world.given := by
  let noted : Carried (Noted ω) := ⟨c.arguments, c.attributes, ⟨c.world, []⟩, c.journal⟩
  have hfollows : Paired (AtPlace call ⟨0, 0, true⟩) Leaves
      (proceed host.noting chain (noted.stage call ⟨0, 0, false⟩)) (onward host.noting call chain 0 noted) :=
    follows_proceed chain 0 _ noted rfl
  change (stateOf (proceed host.noting chain (noted.stage call ⟨0, 0, false⟩))).world.given =
    (stateOf (onward host.noting call chain 0 noted)).world.given
  generalize proceed host.noting chain _ = r, onward host.noting call chain 0 noted = r' at *
  cases hfollows with
  | ok hs =>
    rw [hs]
    rfl
  | error hs => exact congrArg Noted.given hs.1

/-- Along an empty chain the target is called, and that is all. -/
theorem given_nil (ht : call.target = some t) (host : Host ω) (c : Carried ω) :
    given host [] (c.stage call ⟨0, 0, false⟩) = [(.call t call.method c.arguments, c.world)] := by
  rw [given_eq]
  change (stateOf (Nesting.target Execution.unsigned host.noting call _)).world.given = _
  unfold Nesting.target
  rw [ht]
  exact given_command _ _

/-- An invocation that proceeds along a chain of interceptors that hand on comes to what its target answers, if
no command on its way is aborted. -/
theorem proceed_handsOn {c : Carried ω} (ht : call.target = some t) (hchain : chain.HandsOn)
    (h : ∀ p ∈ given host chain (c.stage call ⟨0, 0, false⟩), Answered host t call.method v p) :
    ∃ s, proceed host chain (c.stage call ⟨0, 0, false⟩) = .ok (.ok v) s := by
  let noted : Carried (Noted ω) := ⟨c.arguments, c.attributes, ⟨c.world, []⟩, c.journal⟩
  have hnoting : Paired _ _ (proceed host chain (c.stage call ⟨0, 0, false⟩))
      (proceed host.noting chain (noted.stage call ⟨0, 0, false⟩)) := proceed_noting host chain _
  have hfollows : Paired (AtPlace call ⟨0, 0, true⟩) Leaves
      (proceed host.noting chain (noted.stage call ⟨0, 0, false⟩)) (onward host.noting call chain 0 noted) :=
    follows_proceed chain 0 _ noted rfl
  have hdelivers : Delivers (Answered host t call.method v) (· = .ok v) (onward host.noting call chain 0) :=
    delivers_run ht hchain
  rw [given_eq] at h
  obtain ⟨o, d, hd, rfl⟩ := hdelivers noted h
  rw [hd] at hfollows
  generalize proceed host chain _ = r, proceed host.noting chain _ = r' at hnoting hfollows
  cases hfollows
  cases hnoting
  exact ⟨_, rfl⟩

end Invocation
end Weaving
