import Weaving.Advice.Observer
import Weaving.Proofs.Invocation.Refinement

/-! Chains with observers put in. As long as no other interceptor looks at where its invocation stands, the
chain means what it means without them, and all that is added are entries of the log. Hosts may differ in the
same way, so that the calls on the way may pass observers of their own. -/
namespace Weaving

/-- The second journal is the first one with log entries put in. -/
inductive Embellished : List Entry → List Entry → Prop
  | nil : Embellished [] []
  | kept {es es' : List Entry} (e : Entry) (rest : Embellished es es') : Embellished (e :: es) (e :: es')
  | logged {es es' : List Entry} (level : Level) (text : String) (rest : Embellished es es') :
      Embellished es (.log level text :: es')

namespace Embellished

variable {es es' fs fs' : List Entry}

theorem refl (es : List Entry) : Embellished es es := by
  induction es with
  | nil => exact nil
  | cons e es ih => exact kept e ih

theorem append (h : Embellished es es') (h' : Embellished fs fs') :
    Embellished (es ++ fs) (es' ++ fs') := by
  induction h with
  | nil => exact h'
  | kept e _ ih => exact kept e ih
  | logged level text _ ih => exact logged level text ih

end Embellished

namespace Interceptor

/-- The interceptors that log calls, slow calls and failures. -/
inductive Observes : Interceptor → Prop
  | tracing (withArguments : Bool) : Observes (.tracing withArguments)
  | performance (threshold : Nat) : Observes (.performance threshold)
  | exceptionLogging : Observes (.throws .exceptionLogging)

end Interceptor

/-- The program does not look at where the invocation stands in its chain, but may ask whether it has
completed. -/
inductive Program.Blind {α : Type} : Program α → Prop
  | done (a : α) : Blind (.done a)
  | located {next : Location → Program α} (same : ∀ l l', l.completed = l'.completed → next l = next l')
      (rest : ∀ l, Blind (next l)) : Blind (.step (.act .locate) next)
  | step {op : Op} {next : op.Reply → Program α} (hop : op ≠ .act .locate) (rest : ∀ r, Blind (next r)) :
      Blind (.step op next)

/-- No element that is asked for the arguments of a call aborts it. -/
def Element.Answers (e : Element) : Prop := ∀ i, ∃ admitted, e.admits i = .ok admitted

namespace Chain

/-- The interceptors of a chain do not look at where an invocation stands. -/
def Blind (chain : Chain) : Prop := ∀ e ∈ chain, e.interceptor.body.Blind

/-- The second chain is the first one with observers put in. -/
inductive Observed : Chain → Chain → Prop
  | nil : Observed [] []
  | kept {chain chain' : Chain} (e : Element) (rest : Observed chain chain') :
      Observed (e :: chain) (e :: chain')
  | inserted {chain chain' : Chain} {e : Element} (observes : e.interceptor.Observes)
      (answers : e.Answers) (rest : Observed chain chain') : Observed chain (e :: chain')

end Chain

variable {ω υ α : Type}

/-- In related worlds both hosts obey alike, and leave related worlds, but the second may log more. -/
structure Host.Echoes (R : ω → υ → Prop) (host : Host ω) (host' : Host υ) : Prop where
  result : ∀ c w w', R w w' → (host.obey c w).result = (host'.obey c w').result
  entries : ∀ c w w', R w w' → Embellished (host.obey c w).entries (host'.obey c w').entries
  world : ∀ c w w', R w w' → R (host.obey c w).world (host'.obey c w').world
  clock : ∀ w w', R w w' → host.clock w = host'.clock w'

namespace Host.Echoes

variable {R : ω → υ → Prop} {host : Host ω} {host' : Host υ}

theorem refl (host : Host ω) : Host.Echoes (· = ·) host host where
  result := by rintro c w _ rfl; rfl
  entries := by rintro c w _ rfl; exact .refl _
  world := by rintro c w _ rfl; rfl
  clock := by rintro w _ rfl; rfl

/-- Signing commands changes nothing about that. -/
theorem signed (h : Host.Echoes R host host') (sign : Execution → List Entry) :
    Host.Echoes R (host.signed sign) (host'.signed sign) where
  result := h.result
  entries c w w' hw := (Embellished.refl _).append (h.entries c w w' hw)
  world := h.world
  clock := h.clock

end Host.Echoes

namespace Nesting

/-- The same arguments and attributes, in related worlds, with more in the log. -/
structure Alike (R : ω → υ → Prop) (c : Carried ω) (c' : Carried υ) : Prop where
  arguments : c.arguments = c'.arguments
  attributes : c.attributes = c'.attributes
  world : R c.world c'.world
  journal : Embellished c.journal c'.journal

/-- Two courses do the same, but for what they log. -/
abbrev Echoing (R : ω → υ → Prop) (x : Course ω α) (y : Course υ α) : Prop :=
  Simulates (Alike R) (Alike R) (Alike R) x y

variable {R : ω → υ → Prop} {host : Host ω} {host' : Host υ} {call : Call} {length length' k k' : Nat}
  {x rest : Course ω (Outcome Value)} {y rest' : Course υ (Outcome Value)}

theorem echoing_command (h : Host.Echoes R host host') (cmd : Command) :
    Echoing R (command Execution.unsigned host cmd) (command Execution.unsigned host' cmd) := by
  intro c c' hc
  have hafter : Alike R
      { c with
        world := (host.obey cmd c.world).world
        journal := c.journal ++ (host.obey cmd c.world).entries }
      { c' with
        world := (host'.obey cmd c'.world).world
        journal := c'.journal ++ (host'.obey cmd c'.world).entries } :=
    ⟨hc.arguments, hc.attributes, h.world cmd _ _ hc.world, hc.journal.append (h.entries cmd _ _ hc.world)⟩
  unfold command
  dsimp only [Execution.unsigned, List.nil_append]
  rw [← h.result cmd _ _ hc.world]
  cases (host.obey cmd c.world).result with
  | ok o => exact .ok hafter
  | error a => exact .error hafter

/-- A course that looks at what is carried along. -/
theorem echoing_get {f : Carried ω → Course ω α} {g : Carried υ → Course υ α}
    (h : ∀ c c', Alike R c c' → Echoing R (f c) (g c')) : Echoing R (get >>= f) (get >>= g) :=
  fun c c' hc => h c c' hc c c' hc

theorem echoing_modify {f : Carried ω → Carried ω} {g : Carried υ → Carried υ}
    (h : ∀ c c', Alike R c c' → Alike R (f c) (g c')) :
    Echoing R (modify f : Course ω Unit) (modify g : Course υ Unit) :=
  fun c c' hc => .ok (h c c' hc)

theorem echoing_act (h : Host.Echoes R host host') {a : Act} (ha : a ≠ .locate) :
    Echoing R (act Execution.unsigned host call length k a)
      (act Execution.unsigned host' call length' k' a) := by
  cases a with
  | look =>
    refine echoing_get fun c c' hc => ?_
    rw [hc.arguments, hc.attributes]
    exact Simulates.pure _ fun _ _ => id
  | locate => contradiction
  | clock =>
    refine echoing_get fun c c' hc => ?_
    rw [h.clock _ _ hc.world]
    exact Simulates.pure _ fun _ _ => id
  | note e =>
    exact echoing_modify fun c c' hc =>
      ⟨hc.arguments, hc.attributes, hc.world, hc.journal.append (.refl [e])⟩
  | command c => exact echoing_command h c

theorem echoing_fork (h : Echoing R rest rest') (copy : Copy) :
    Echoing R (fork call rest copy) (fork call rest' copy) := by
  unfold fork
  split
  · exact Simulates.pure _ fun _ _ => id
  · refine echoing_get fun c c' hc => ?_
    have hlent : Echoing R (set { c with arguments := copy.arguments, attributes := copy.attributes })
        (set { c' with arguments := copy.arguments, attributes := copy.attributes }) :=
      fun _ _ _ => .ok ⟨rfl, rfl, hc.world, hc.journal⟩
    refine hlent.bind fun _ => h.bind fun o => echoing_get fun d d' hd => ?_
    rw [hd.arguments, hd.attributes]
    have hback : Echoing R (set { d with arguments := c.arguments, attributes := c.attributes })
        (set { d' with arguments := c'.arguments, attributes := c'.attributes }) :=
      fun _ _ _ => .ok ⟨hc.arguments, hc.attributes, hd.world, hd.journal⟩
    exact hback.bind fun _ => Simulates.pure _ fun _ _ => id

theorem echoing_operation (h : Host.Echoes R host host') (hrest : Echoing R rest rest') {op : Op}
    (hop : op ≠ .act .locate) :
    Echoing R (operation Execution.unsigned host call length k rest op)
      (operation Execution.unsigned host' call length' k' rest' op) := by
  cases op with
  | act a => exact echoing_act h fun ha => hop (congrArg Op.act ha)
  | setArguments vs => exact echoing_modify fun c c' hc => ⟨rfl, hc.attributes, hc.world, hc.journal⟩
  | setArgument n v =>
    intro c c' hc
    have hnext : Alike R { c with arguments := c.arguments.set n v }
        { c' with arguments := c'.arguments.set n v } :=
      ⟨by rw [hc.arguments], hc.attributes, hc.world, hc.journal⟩
    change Paired _ _ (.ok (decide (n < c.arguments.length)) _) (.ok (decide (n < c'.arguments.length)) _)
    rw [hc.arguments] at hnext ⊢
    exact .ok hnext
  | setAttribute key v =>
    exact echoing_modify fun c c' hc => ⟨hc.arguments, by rw [hc.attributes], hc.world, hc.journal⟩
  | removeAttribute key =>
    intro c c' hc
    have hnext : Alike R { c with attributes := c.attributes.remove key }
        { c' with attributes := c'.attributes.remove key } :=
      ⟨hc.arguments, by rw [hc.attributes], hc.world, hc.journal⟩
    change Paired _ _ (.ok (c.attributes.find? key) _) (.ok (c'.attributes.find? key) _)
    rw [hc.attributes] at hnext ⊢
    exact .ok hnext
  | proceed => exact hrest
  | fork copy => exact echoing_fork hrest copy

/-- A program that does not look at its place does the same at another one. -/
theorem echoing_blind (h : Host.Echoes R host host') (hrest : Echoing R rest rest') {p : Program α}
    (hp : p.Blind) : Echoing R (Routine.run (operation Execution.unsigned host call length k rest) p)
      (Routine.run (operation Execution.unsigned host' call length' k' rest') p) := by
  induction hp with
  | done a => exact Simulates.pure a fun _ _ => id
  | @located next same _ ih =>
    change Echoing R (Routine.run _ (next ⟨k + 1, length, false⟩))
      (Routine.run _ (next ⟨k' + 1, length', false⟩))
    rw [same ⟨k + 1, length, false⟩ ⟨k' + 1, length', false⟩ rfl]
    exact ih _
  | step hop _ ih => exact (echoing_operation h hrest hop).bind ih

/-- A course with something put into the log before and after it. -/
def logging (before : Carried ω → List Entry) (after : Carried ω → Outcome Value → Carried ω → List Entry)
    (rest : Course ω (Outcome Value)) : Course ω (Outcome Value) := fun c =>
  match rest { c with journal := c.journal ++ before c } with
  | .ok o d => .ok o { d with journal := d.journal ++ after c o d }
  | .error a d => .error a d

theorem echoing_logging {before : Carried υ → List Entry}
    {after : Carried υ → Outcome Value → Carried υ → List Entry}
    (hbefore : ∀ c, Embellished [] (before c)) (hafter : ∀ c o d, Embellished [] (after c o d))
    (h : Echoing R x y) : Echoing R x (logging before after y) := by
  intro c c' hc
  have hstart : Alike R c { c' with journal := c'.journal ++ before c' } := by
    refine ⟨hc.arguments, hc.attributes, hc.world, ?_⟩
    simpa using hc.journal.append (hbefore c')
  have hxy := h _ _ hstart
  unfold logging
  generalize x c = r, y { c' with journal := c'.journal ++ before c' } = r' at hxy
  cases hxy with
  | ok hd =>
    refine .ok ⟨hd.arguments, hd.attributes, hd.world, ?_⟩
    simpa using hd.journal.append (hafter _ _ _)
  | error hd => exact .error hd

theorem run_tracing (withArguments : Bool) (rest : Course ω (Outcome Value)) :
    Routine.run (operation Execution.unsigned host call length k rest)
        (Interceptor.tracing withArguments).body =
      logging
        (fun c => [.info ("→ Entering: " ++ call.method.text ++
          if withArguments then " with " ++ Value.shownList c.arguments else "")])
        (fun _ o _ => [.info ("← Exiting: " ++ call.method.text ++
          match o with
          | .ok _ => ""
          | .error f => " with error '" ++ f.message ++ "'")]) rest := by
  funext c
  change EStateM.bind rest _ _ = _
  unfold EStateM.bind logging
  dsimp only
  cases rest { c with journal := c.journal ++ [.info ("→ Entering: " ++ call.method.text ++
    if withArguments then " with " ++ Value.shownList c.arguments else "")] } with
  | ok o d => rfl
  | error a d => rfl

theorem run_performance (threshold : Nat) (rest : Course ω (Outcome Value)) :
    Routine.run (operation Execution.unsigned host call length k rest)
        (Interceptor.performance threshold).body =
      logging (fun _ => [])
        (fun c _ d => if threshold ≤ host.clock d.world - host.clock c.world then
          [.warn ("Slow method detected: " ++ call.method.text ++
            " (threshold: " ++ toString threshold ++ "ms)")] else []) rest := by
  funext c
  change EStateM.bind rest _ _ = _
  unfold EStateM.bind logging
  rw [List.append_nil]
  cases rest c with
  | error a d => rfl
  | ok o d =>
    change Routine.run (operation Execution.unsigned host call length k rest)
      (if threshold ≤ host.clock d.world - host.clock c.world then _ else _) d = _
    dsimp only
    by_cases hslow : threshold ≤ host.clock d.world - host.clock c.world
    · rw [if_pos hslow, if_pos hslow]
      rfl
    · rw [if_neg hslow, if_neg hslow, List.append_nil]
      rfl

/-- Exception logging has no handlers for causes of any type, and rethrows what it logs. -/
theorem handle_exceptionLogging (f : Failure) :
    ThrowsAdvice.exceptionLogging.handle f = some (do
      let view ← Inspection.look
      Inspection.note (.error ("Exception in " ++ view.method.text ++ " [" ++ f.summary.type ++ "]: " ++
        f.summary.text ++ " (root cause: " ++ f.summary.root ++ ")"))
      return .ok .rethrow) := by
  have hnone : f.chain.findSome? ThrowsAdvice.exceptionLogging.reaction? = none :=
    List.findSome?_eq_none_iff.mpr fun _ _ => rfl
  rw [ThrowsAdvice.handle, hnone]
  rfl

theorem run_exceptionLogging (rest : Course ω (Outcome Value)) :
    Routine.run (operation Execution.unsigned host call length k rest)
        (Interceptor.throws .exceptionLogging).body =
      logging (fun _ => [])
        (fun _ o _ => match o with
          | .ok _ => []
          | .error f => [.error ("Exception in " ++ call.method.text ++ " [" ++ f.summary.type ++ "]: " ++
              f.summary.text ++ " (root cause: " ++ f.summary.root ++ ")")]) rest := by
  funext c
  change EStateM.bind rest _ _ = _
  unfold EStateM.bind logging
  rw [List.append_nil]
  cases rest c with
  | error a d => rfl
  | ok o d =>
    cases o with
    | ok v =>
      dsimp only
      rw [List.append_nil]
      rfl
    | error f =>
      dsimp only [Interceptor.throws]
      simp only [handle_exceptionLogging]
      rfl

/-- What an observer runs around is done as it is without the observer. -/
theorem echoing_observer {i : Interceptor} (hi : i.Observes) (h : Echoing R x y) :
    Echoing R x (Routine.run (operation Execution.unsigned host' call length' k' y) i.body) := by
  have hlog : ∀ level text, Embellished [] [.log level text] := fun level text => .logged level text .nil
  cases hi with
  | tracing withArguments =>
    rw [run_tracing]
    exact echoing_logging (fun _ => hlog _ _) (fun _ _ _ => hlog _ _) h
  | performance threshold =>
    rw [run_performance]
    refine echoing_logging (fun _ => .nil) (fun _ _ _ => ?_) h
    split
    · exact hlog _ _
    · exact .nil
  | exceptionLogging =>
    rw [run_exceptionLogging]
    refine echoing_logging (fun _ => .nil) (fun _ o _ => ?_) h
    cases o with
    | ok v => exact .nil
    | error f => exact hlog _ _

theorem echoing_target (h : Host.Echoes R host host') :
    Echoing R (target Execution.unsigned host call) (target Execution.unsigned host' call) := by
  unfold target
  cases call.target with
  | none => exact Simulates.pure _ fun _ _ => id
  | some t =>
    refine echoing_get fun c c' hc => ?_
    rw [hc.arguments]
    exact echoing_command h _

theorem run_cons (e : Element) (chain : Chain) :
    run Execution.unsigned host call length k (e :: chain) = (get >>= fun c =>
      match admits call e c.arguments with
      | .error a => throw a
      | .ok true => Routine.run (operation Execution.unsigned host call length k
          (run Execution.unsigned host call length (k + 1) chain)) e.interceptor.body
      | .ok false => run Execution.unsigned host call length (k + 1) chain) := by
  have hunsigned (z : Course ω (Outcome Value)) :
      (journal (Execution.unsigned (.interceptor k)) >>= fun _ => z) = z := by
    funext c
    change z { c with journal := c.journal ++ [] } = z c
    rw [List.append_nil]
  have hrun : run Execution.unsigned host call length k (e :: chain) = (get >>= fun c =>
      match admits call e c.arguments with
      | .error a => throw a
      | .ok true => do
        journal (Execution.unsigned (.interceptor k))
        Routine.run (operation Execution.unsigned host call length k
          (run Execution.unsigned host call length (k + 1) chain)) e.interceptor.body
      | .ok false => run Execution.unsigned host call length (k + 1) chain) := rfl
  rw [hrun]
  simp only [hunsigned]

theorem exists_admits {e : Element} (h : e.Answers) (call : Call) (arguments : List Value) :
    ∃ admitted, admits call e arguments = .ok admitted :=
  h { proxy := call.proxy, target := call.target, targetClass := call.targetClass, method := call.method
      arguments := arguments }

/-- A chain with observers put in does what the chain does without them. -/
theorem echoing_run (h : Host.Echoes R host host') {chain chain' : Chain}
    (hobserved : Chain.Observed chain chain') (hblind : chain.Blind) :
    Echoing R (run Execution.unsigned host call length k chain)
      (run Execution.unsigned host' call length' k' chain') := by
  induction hobserved generalizing k k' with
  | nil => exact echoing_target h
  | @kept chain chain' e _ ih =>
    have hrest := @ih (k + 1) (k' + 1) fun e he => hblind e (List.mem_cons_of_mem _ he)
    rw [run_cons, run_cons]
    refine echoing_get fun c c' hc => ?_
    rw [hc.arguments]
    obtain a | _ | _ := admits call e c'.arguments
    · exact Simulates.throw a fun _ _ => id
    · exact hrest
    · exact echoing_blind h hrest (hblind e List.mem_cons_self)
  | @inserted chain chain' e observes answers _ ih =>
    have hrest := @ih k (k' + 1) hblind
    rw [run_cons]
    intro c c' hc
    obtain ⟨admitted, ha⟩ := exists_admits answers call c'.arguments
    change Paired _ _ _ ((match admits call e c'.arguments with
      | .error a => _
      | .ok true => _
      | .ok false => _ : Course υ (Outcome Value)) c')
    rw [ha]
    cases admitted with
    | false => exact hrest c c' hc
    | true => exact echoing_observer observes hrest c c' hc

end Nesting
end Weaving
