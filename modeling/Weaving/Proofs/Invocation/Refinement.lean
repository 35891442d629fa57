import Weaving.Proofs.Invocation.Nesting
import Weaving.Proofs.Simulation

/-! The cursor refines nested composition. An invocation that proceeds along a chain, with one cursor and
one depth for all that goes on, does what the chain means as a nested composition: the same outcome, the
same arguments and attributes, the same world and the same journal. An invocation in the midst of its
chain stands at a place, and every proceeding from a place comes back to it. -/
namespace Weaving

/-- Where an invocation stands: the next element, its depth and whether it has completed. -/
structure Place where
  cursor : Nat
  depth : Nat
  completed : Bool

/-- What a call carries, as an invocation at a place. -/
def Carried.stage {ω : Type} (c : Carried ω) (call : Call) (p : Place) : Stage ω where
  invocation :=
    { proxy := call.proxy, target := call.target, targetClass := call.targetClass
      method := call.method, arguments := c.arguments, attributes := c.attributes
      cursor := p.cursor, depth := p.depth, completed := p.completed }
  world := c.world
  journal := c.journal

namespace Nesting

variable {ω α β : Type}

/-- An invocation stands at a place with what the call carries. -/
def AtPlace (call : Call) (p : Place) (s : Stage ω) (c : Carried ω) : Prop := s = c.stage call p

/-- All that is left of a call that is aborted: the world and the journal. -/
def Leaves (s : Stage ω) (c : Carried ω) : Prop := s.world = c.world ∧ s.journal = c.journal

/-- A play goes from one place to another and does what a course does. -/
abbrev Follows (call : Call) (p q : Place) (x : Play ω α) (y : Course ω α) : Prop :=
  Simulates (AtPlace call p) (AtPlace call q) Leaves x y

variable {sign : Execution → List Entry} {host : Host ω} {call : Call} {p q : Place}

theorem Follows.of_stage {x : Play ω α} {y : Course ω α}
    (h : ∀ c, Paired (AtPlace call q) Leaves (x (c.stage call p)) (y c)) : Follows call p q x y := by
  rintro s c rfl
  exact h c

theorem modifyInvocation_bind (f : Invocation → Invocation) (k : Unit → Play ω α) (s : Stage ω) :
    (Play.modifyInvocation f >>= k) s = k () { s with invocation := f s.invocation } := rfl

theorem invocation_bind (k : Invocation → Play ω α) (s : Stage ω) :
    (Play.invocation >>= k) s = k s.invocation s := rfl

/-- A play that reads something off an invocation and goes on. -/
theorem follows_invocation {f : Invocation → Play ω α} {y : Course ω α}
    (h : ∀ c : Carried ω, Paired (AtPlace call q) Leaves
      (f (c.stage call p).invocation (c.stage call p)) (y c)) :
    Follows call p q (Play.invocation >>= f) y :=
  Follows.of_stage h

theorem follows_command (c : Command) :
    Follows call p p (Play.command (host.signed sign) c) (command sign host c) := by
  apply Follows.of_stage
  intro s
  unfold Play.command command Host.signed
  dsimp only [Carried.stage]
  cases (host.obey c s.world).result with
  | ok o => exact .ok rfl
  | error a => exact .error ⟨rfl, rfl⟩

theorem follows_act {position length : Nat} (hp : p.cursor = position + 1)
    (hc : p.completed = false) (a : Act) :
    Follows call p p (a.run (host.signed sign) length) (act sign host call length position a) := by
  cases a with
  | look => exact Follows.of_stage fun c => .ok rfl
  | locate =>
    apply Follows.of_stage
    intro c
    change Paired _ _ (.ok (⟨p.cursor, length, p.completed⟩ : Location) _) _
    rw [hp, hc]
    exact .ok rfl
  | clock => exact Follows.of_stage fun c => .ok rfl
  | note e => exact Follows.of_stage fun c => .ok rfl
  | command c => exact follows_command c

/-- An invocation that has not completed proceeds one deeper and comes back to its depth; it completes
if it was not proceeding before. -/
theorem follows_outermost {inner : Play ω (Outcome Value)} {y : Course ω (Outcome Value)}
    (hp : p.completed = false)
    (h : Follows call { p with depth := p.depth + 1 } { p with depth := p.depth + 1 } inner y) :
    Follows call p { p with completed := decide (p.depth = 0) } (Invocation.outermost inner) y := by
  apply follows_invocation
  intro c
  rw [if_neg (by simp [Carried.stage, hp])]
  have hdown : Follows call p { p with depth := p.depth + 1 }
      (Play.modifyInvocation fun i => { i with depth := i.depth + 1 } : Play ω Unit) (pure ()) :=
    Follows.of_stage fun c => .ok rfl
  refine hdown.before (h.after ?_) _ _ rfl
  apply Follows.of_stage
  intro c
  refine .ok ?_
  simp [AtPlace, Carried.stage, hp]

/-- While an invocation is proceeding, it can proceed again, and is left as it was. -/
theorem follows_nested {inner : Play ω (Outcome Value)} {y : Course ω (Outcome Value)}
    (hp : p.completed = false) (hd : p.depth ≠ 0)
    (h : Follows call { p with depth := p.depth + 1 } { p with depth := p.depth + 1 } inner y) :
    Follows call p p (Invocation.outermost inner) y := by
  have hq : { p with completed := decide (p.depth = 0) } = p := by simp [hd, ← hp]
  simpa only [hq] using follows_outermost hp h

/-- An invocation that has completed is refused. -/
theorem outermost_of_completed {inner : Play ω (Outcome Value)} {s : Stage ω}
    (hd : s.invocation.depth = 0) (hc : s.invocation.completed = true) :
    Invocation.outermost inner s =
      .ok (.error (.ofFault (.invocationCompleted s.invocation.method.text))) s := by
  change (if _ then _ else _ : Play ω (Outcome Value)) s = _
  rw [if_pos ⟨hd, hc⟩]
  rfl

/-- The invocation that takes the place of another to let a copy of it proceed. -/
def lend (i : Invocation) (copy : Copy) : Invocation :=
  { i.cloneWith copy.arguments with attributes := copy.attributes, completed := copy.completed }

theorem run_fork (length : Nat) (down : Play ω (Outcome Value)) (copy : Copy) (s : Stage ω) :
    Op.run host length down (.fork copy) s =
      (Play.modifyInvocation (fun _ => lend s.invocation copy) >>= fun _ => down >>= fun outcome => do
        let i ← Play.invocation
        Play.modifyInvocation fun _ => s.invocation
        return (outcome, (⟨i.arguments, i.attributes, i.completed⟩ : Copy))) s := rfl

theorem fork_of_fresh (rest : Course ω (Outcome Value)) (arguments : List Value)
    (attributes : Attributes) (c : Carried ω) :
    fork call rest ⟨arguments, attributes, false⟩ c =
      ((set { c with arguments := arguments, attributes := attributes } : Course ω Unit) >>= fun _ =>
        rest >>= fun outcome => do
          let d ← get
          set { d with arguments := c.arguments, attributes := c.attributes }
          return (outcome, (⟨d.arguments, d.attributes, true⟩ : Copy))) c := rfl

/-- A copy runs what the invocation would run, on its own arguments and attributes, and the
invocation stays where and as it is. -/
theorem follows_fork {length : Nat} {inner : Play ω (Outcome Value)} {rest : Course ω (Outcome Value)}
    (h : Follows call ⟨p.cursor, 1, false⟩ ⟨p.cursor, 1, false⟩ inner rest) (copy : Copy) :
    Follows call p p (Op.run (host.signed sign) length (Invocation.outermost inner) (.fork copy))
      (fork call rest copy) := by
  apply Follows.of_stage
  intro c
  obtain ⟨arguments, attributes, completed⟩ := copy
  rw [run_fork]
  cases completed with
  | true =>
    rw [modifyInvocation_bind, bind_of_ok (outermost_of_completed rfl rfl)]
    exact .ok rfl
  | false =>
    have hlend : Simulates (fun s d => s = c.stage call p ∧ d = c) (AtPlace call ⟨p.cursor, 0, false⟩)
        Leaves (Play.modifyInvocation fun _ =>
          lend (c.stage call p).invocation ⟨arguments, attributes, false⟩ : Play ω Unit)
        (set { c with arguments := arguments, attributes := attributes } : Course ω Unit) := by
      rintro s d ⟨rfl, rfl⟩
      exact .ok rfl
    have hf := follows_outermost (p := ⟨p.cursor, 0, false⟩) rfl h
    rw [fork_of_fresh]
    refine hlend.bind (fun _ => hf.bind fun o => ?_) _ _ ⟨rfl, rfl⟩
    exact Follows.of_stage fun d => .ok rfl

/-- What an interceptor does at its place is what it does around the rest of the chain. -/
theorem follows_operation {position length : Nat} {inner : Play ω (Outcome Value)}
    {rest : Course ω (Outcome Value)} (hp : p.cursor = position + 1) (hc : p.completed = false)
    (hd : p.depth ≠ 0)
    (h : ∀ depth, Follows call ⟨position + 1, depth + 1, false⟩ ⟨position + 1, depth + 1, false⟩
      inner rest) (op : Op) :
    Follows call p p (op.run (host.signed sign) length (Invocation.outermost inner))
      (operation sign host call length position rest op) := by
  obtain ⟨cursor, depth, completed⟩ := p
  subst hp hc
  cases op with
  | act a => exact follows_act rfl rfl a
  | setArguments vs => exact Follows.of_stage fun c => .ok rfl
  | setArgument n v => exact Follows.of_stage fun c => .ok rfl
  | setAttribute key v => exact Follows.of_stage fun c => .ok rfl
  | removeAttribute key => exact Follows.of_stage fun c => .ok rfl
  | proceed => exact follows_nested rfl hd (h depth)
  | fork copy => exact follows_fork (h 0) copy

theorem follows_joinpoint :
    Follows call p p (Invocation.joinpoint (host.signed sign)) (target sign host call) := by
  apply Follows.of_stage
  intro c
  unfold target
  obtain ⟨proxy, _ | t, targetClass, method⟩ := call
  · exact .ok rfl
  · exact follows_command (.call t method c.arguments) _ _ rfl

/-- Signing leaves the signs in the journal and does nothing else. -/
theorem run_sign {length : Nat} {down : Play ω (Outcome Value)} (es : List Entry) (s : Stage ω) :
    (Program.sign es).run host length down s = .ok () { s with journal := s.journal ++ es } := by
  induction es generalizing s with
  | nil => simp [Program.sign, Program.run, Pure.pure, EStateM.pure]
  | cons e es ih =>
    change (Program.sign es).run host length down { s with journal := s.journal ++ [e] } = _
    rw [ih]
    simp

theorem getElem?_signed (chain : Chain) (k : Nat) :
    (Chain.signed sign chain)[k]? = chain[k]?.map fun e => e.signed (sign (.interceptor k)) := by
  simp [Chain.signed]

theorem length_signed (chain : Chain) : (Chain.signed sign chain).length = chain.length := by
  simp [Chain.signed]

/-- The interceptor of an element, signing itself, runs around the rest of the chain. -/
theorem follows_signed {position length : Nat} {inner : Play ω (Outcome Value)}
    {rest : Course ω (Outcome Value)} (hp : p.cursor = position + 1) (hc : p.completed = false)
    (hd : p.depth ≠ 0)
    (h : ∀ depth, Follows call ⟨position + 1, depth + 1, false⟩ ⟨position + 1, depth + 1, false⟩
      inner rest) (e : Element) :
    Follows call p p
      ((e.signed (sign (.interceptor position))).interceptor.body.run (host.signed sign) length
        (Invocation.outermost inner))
      (journal (sign (.interceptor position)) >>= fun _ =>
        Routine.run (operation sign host call length position rest) e.interceptor.body) := by
  change Follows call p p (Routine.run _ (Program.sign _ >>= fun _ => e.interceptor.body)) _
  rw [Routine.run_bind]
  refine Simulates.bind (?_ : Simulates _ (AtPlace call p) _ _ _) fun _ => ?_
  · rintro _ c rfl
    rw [← Program.run, run_sign]
    exact .ok rfl
  · exact Simulates.run (fun op => follows_operation hp hc hd h op) _

theorem advance_past {chain : Chain} {n : Nat} {s : Stage ω} (h : chain[s.invocation.cursor]? = none) :
    Invocation.advance host chain (n + 1) s = Invocation.joinpoint host s := by
  simp only [Invocation.advance, invocation_bind, h]

/-- One element: the cursor moves past it while it is carried out or passed over, and back. -/
theorem advance_at {chain : Chain} {n : Nat} {s : Stage ω} {e : Element}
    (h : chain[s.invocation.cursor]? = some e) :
    Invocation.advance host chain (n + 1) s =
      (match e.admits s.invocation with
        | .error a => throw a
        | .ok true =>
          e.interceptor.body.run host chain.length
            (Invocation.outermost (Invocation.advance host chain n)) >>= fun outcome =>
          Play.modifyInvocation (fun i => { i with cursor := s.invocation.cursor }) >>= fun _ =>
          pure outcome
        | .ok false =>
          Invocation.advance host chain n >>= fun outcome =>
          Play.modifyInvocation (fun i => { i with cursor := s.invocation.cursor }) >>= fun _ =>
          pure outcome : Play ω (Outcome Value))
        { s with invocation := { s.invocation with cursor := s.invocation.cursor + 1 } } := by
  have ha : e.admits { s.invocation with cursor := s.invocation.cursor + 1 } =
      e.admits s.invocation := rfl
  simp only [Invocation.advance, invocation_bind, h, modifyInvocation_bind, ha]
  obtain a | _ | _ := e.admits s.invocation <;> rfl

/-- The elements from the cursor on do what the rest of the chain does from there, at any depth, and
the cursor comes back. The fuel is what the chain has left. -/
theorem follows_advance (chain : Chain) (n k depth : Nat) (hn : chain.length ≤ n + k) :
    Follows call ⟨k, depth + 1, false⟩ ⟨k, depth + 1, false⟩
      (Invocation.advance (host.signed sign) (chain.signed sign) n)
      (run sign host call chain.length k (chain.drop k)) := by
  induction n generalizing k depth with
  | zero =>
    rw [List.drop_eq_nil_of_le (by omega)]
    exact follows_joinpoint
  | succ n ih =>
    apply Follows.of_stage
    intro c
    cases he : chain[k]? with
    | none =>
      rw [advance_past (by simp [Carried.stage, getElem?_signed, he]),
        List.drop_eq_nil_of_le (by simpa using he)]
      exact follows_joinpoint _ _ rfl
    | some e =>
      rw [advance_at (by simp [Carried.stage, getElem?_signed, he]; rfl)]
      have hdrop : chain.drop k = e :: chain.drop (k + 1) := by
        obtain ⟨hk, rfl⟩ := List.getElem?_eq_some_iff.mp he
        exact List.drop_eq_getElem_cons hk
      rw [hdrop]
      have hback : Follows call ⟨k + 1, depth + 1, false⟩ ⟨k, depth + 1, false⟩
          (Play.modifyInvocation fun i => { i with cursor := k } : Play ω Unit) (pure ()) :=
        Follows.of_stage fun c => .ok rfl
      have hrest := fun d => ih (k + 1) d (by omega)
      change Paired _ _ ((match admits call e c.arguments with
        | .error a => _
        | .ok true => _
        | .ok false => _ : Play ω (Outcome Value)) (c.stage call ⟨k + 1, depth + 1, false⟩))
        ((match admits call e c.arguments with
        | .error a => _
        | .ok true => _
        | .ok false => _ : Course ω (Outcome Value)) c)
      obtain a | _ | _ := admits call e c.arguments
      · exact .error ⟨rfl, rfl⟩
      · exact (hrest depth).after hback _ _ rfl
      · rw [length_signed]
        exact (follows_signed rfl rfl (by simp) hrest e).after hback _ _ rfl

theorem host_unsigned (host : Host ω) : host.signed Execution.unsigned = host := rfl

theorem chain_unsigned (chain : Chain) : chain.signed Execution.unsigned = chain := by
  have he : ∀ e : Element, e.signed [] = e := fun e => rfl
  apply List.ext_getElem?
  intro k
  rw [getElem?_signed]
  simp [Execution.unsigned, he]

/-- What the rest of a chain means from a place on. -/
def onward (host : Host ω) (call : Call) (chain : Chain) (k : Nat) : Course ω (Outcome Value) :=
  run Execution.unsigned host call chain.length k (chain.drop k)

theorem follows_onward (chain : Chain) (n k depth : Nat) (hn : chain.length ≤ n + k) :
    Follows call ⟨k, depth + 1, false⟩ ⟨k, depth + 1, false⟩ (Invocation.advance host chain n)
      (onward host call chain k) := by
  have h := @follows_advance _ Execution.unsigned host call chain n k depth hn
  rwa [host_unsigned, chain_unsigned] at h

/-- An invocation that has not proceeded runs the chain from where it stands, and completes there. -/
theorem follows_proceed (chain : Chain) (k : Nat) :
    Follows call ⟨k, 0, false⟩ ⟨k, 0, true⟩ (Invocation.proceed host chain) (onward host call chain k) :=
  follows_outermost rfl (follows_onward chain chain.length k 0 (by omega))

/-- An invocation that has not proceeded yet and stands anywhere in its chain. -/
theorem follows_proceeding (chain : Chain) (k : Nat) (hk : k ≤ chain.length) :
    Follows call ⟨k, 0, false⟩ ⟨k, 0, true⟩
      (Invocation.outermost
        (Invocation.advance (host.signed sign) (chain.signed sign) (chain.length - k)))
      (run sign host call chain.length k (chain.drop k)) :=
  follows_outermost rfl (follows_advance chain _ k 0 (by omega))

/-- The cursor machine refines nested composition. A fresh invocation that proceeds along a chain ends
as the chain runs as a nested composition: with the same outcome, the same arguments and attributes,
the same world and journal, at the start of its chain and completed. So it does too when every
interceptor and every command, the target's calls among them, leaves a sign of its own in the journal,
which therefore happen in the same order. Whenever an invocation proceeds while it is proceeding, it
runs the rest of the chain and stands afterwards where it stood, as deep as it was. -/
theorem proceed_refines_nesting (host : Host ω) (chain : Chain) (call : Call) (c : Carried ω) :
    Paired (AtPlace call ⟨0, 0, true⟩) Leaves
        (Invocation.proceed host chain (c.stage call ⟨0, 0, false⟩))
        (runChain Execution.unsigned host call chain c) ∧
      (∀ sign, Paired (AtPlace call ⟨0, 0, true⟩) Leaves
        (Invocation.proceed (host.signed sign) (chain.signed sign) (c.stage call ⟨0, 0, false⟩))
        (runChain sign host call chain c)) ∧
      ∀ k depth, k ≤ chain.length → Paired (AtPlace call ⟨k, depth + 1, false⟩) Leaves
        (Invocation.outermost (Invocation.advance host chain (chain.length - k))
          (c.stage call ⟨k, depth + 1, false⟩))
        (run Execution.unsigned host call chain.length k (chain.drop k) c) := by
  have hsigned : ∀ sign, Paired (AtPlace call ⟨0, 0, true⟩) Leaves
      (Invocation.proceed (host.signed sign) (chain.signed sign) (c.stage call ⟨0, 0, false⟩))
      (runChain sign host call chain c) := by
    intro sign
    rw [Invocation.proceed, length_signed]
    exact follows_proceeding chain 0 (by omega) _ c rfl
  refine ⟨?_, hsigned, ?_⟩
  · simpa only [host_unsigned, chain_unsigned] using hsigned Execution.unsigned
  · intro k depth hk
    have h : Follows call ⟨k, depth + 1 + 1, false⟩ ⟨k, depth + 1 + 1, false⟩
        (Invocation.advance (host.signed Execution.unsigned) (chain.signed Execution.unsigned)
          (chain.length - k))
        (run Execution.unsigned host call chain.length k (chain.drop k)) :=
      follows_advance chain _ k (depth + 1) (by omega)
    rw [host_unsigned, chain_unsigned] at h
    exact follows_nested (p := ⟨k, depth + 1, false⟩) rfl (by simp) h _ c rfl

end Nesting
end Weaving
