import Weaving.Proofs.Invocation.Refinement

/-! Invocations complete once. A client holds an invocation and its clones, lets them proceed and clones
them in any order, and other things happen meanwhile. Each of them proceeds once, from where the first one
stood, and is refused from then on. While an interceptor is running its invocation has not completed,
however often it proceeds, which interceptors that look out for it can tell. -/
namespace Weaving

variable {ω α : Type}

namespace Program

/-- Sounds an alarm if the invocation has completed. -/
def vigil (alarm : Program Unit) : Program Unit :=
  .step (.act .locate) fun (place : Location) => if place.completed then alarm else .done ()

/-- The program that keeps a vigil before each of its operations and at its end. -/
def vigilant (alarm : Program Unit) : Program α → Program α
  | .done a => vigil alarm >>= fun _ => .done a
  | .step op next => vigil alarm >>= fun _ => .step op fun r => vigilant alarm (next r)

end Program

def Element.vigilant (alarm : Program Unit) (e : Element) : Element :=
  { e with interceptor := { e.interceptor with body := Program.vigilant alarm e.interceptor.body } }

/-- The chain whose interceptors keep a vigil all the time. -/
def Chain.vigilant (alarm : Program Unit) (chain : Chain) : Chain := chain.map (Element.vigilant alarm)

namespace Nesting

variable {sign : Execution → List Entry} {host : Host ω} {call : Call}

theorem run_vigilant_body (length position : Nat) (rest : Course ω (Outcome Value))
    (alarm : Program Unit) (p : Program α) :
    Routine.run (operation sign host call length position rest) (Program.vigilant alarm p) =
      Routine.run (operation sign host call length position rest) p := by
  have hvigil : ∀ k : Unit → Program α,
      Routine.run (operation sign host call length position rest) (Program.vigil alarm >>= k) =
        Routine.run (operation sign host call length position rest) (k ()) := fun k => rfl
  induction p with
  | done a => exact hvigil _
  | step op next ih =>
    rw [Program.vigilant, hvigil, Routine.run_step, Routine.run_step]
    exact congrArg _ (funext ih)

/-- No alarm is ever sounded in a nested composition. -/
theorem run_vigilant (length : Nat) (alarm : Program Unit) (chain : Chain) (k : Nat) :
    run sign host call length k (Chain.vigilant alarm chain) = run sign host call length k chain := by
  induction chain generalizing k with
  | nil => rfl
  | cons e chain ih =>
    change run sign host call length k (Element.vigilant alarm e :: Chain.vigilant alarm chain) = _
    simp only [run, ih, Element.vigilant, run_vigilant_body]
    rfl

theorem onward_vigilant (alarm : Program Unit) (chain : Chain) (k : Nat) :
    onward host call (Chain.vigilant alarm chain) k = onward host call chain k := by
  have hdrop : (Chain.vigilant alarm chain).drop k = Chain.vigilant alarm (chain.drop k) := List.map_drop.symm
  have hlength : (Chain.vigilant alarm chain).length = chain.length := List.length_map _
  rw [onward, hdrop, hlength, run_vigilant, onward]

end Nesting

/-- What is carried along by the invocation that is going on. -/
def Stage.carried (s : Stage ω) : Carried ω :=
  ⟨s.invocation.arguments, s.invocation.attributes, s.world, s.journal⟩

namespace Invocation

/-- What stays the same of an invocation on its way. -/
def call (i : Invocation) : Call := ⟨i.proxy, i.target, i.targetClass, i.method⟩

def place (i : Invocation) : Place := ⟨i.cursor, i.depth, i.completed⟩

/-- What all advice may do leaves the invocation alone. -/
theorem run_act {host : Host ω} {length : Nat} {a : Act} {r : a.Reply} {s s' : Stage ω}
    (h : a.run host length s = .ok r s') : s'.invocation = s.invocation := by
  cases a with
  | command c =>
    change Play.command host c s = .ok r s' at h
    unfold Play.command at h
    dsimp only at h
    split at h <;> cases h
    rfl
  | look | locate | clock | note e =>
    cases h
    rfl

theorem run_fork {host : Host ω} {length : Nat} {down : Play ω (Outcome Value)} {copy : Copy}
    {r : Outcome Value × Copy} {s s' : Stage ω} (h : Op.run host length down (.fork copy) s = .ok r s') :
    s'.invocation = s.invocation := by
  rw [Nesting.run_fork, Nesting.modifyInvocation_bind] at h
  obtain ⟨o, u, -, hu⟩ := exists_of_bind_ok h
  cases hu
  rfl

/-- An invocation is at rest where another stands: it is a call of the same, and does not proceed. -/
structure RestsAt (start i : Invocation) : Prop where
  call : i.call = start.call
  cursor : i.cursor = start.cursor
  depth : i.depth = 0

/-- An invocation at rest that has not completed does what the chain means from there, and completes. -/
theorem RestsAt.proceeds {start : Invocation} {s : Stage ω} (hs : RestsAt start s.invocation)
    (hc : s.invocation.completed = false) (host : Host ω) (chain : Chain) :
    Paired (Nesting.AtPlace start.call ⟨start.cursor, 0, true⟩) Nesting.Leaves
      (proceed host chain s) (Nesting.onward host start.call chain start.cursor s.carried) := by
  refine Nesting.follows_proceed chain start.cursor s s.carried ?_
  have hplace : s.invocation.place = ⟨start.cursor, 0, false⟩ := by
    rw [place, hs.cursor, hs.depth, hc]
  rw [← hs.call, ← hplace]
  rfl

/-- Whatever is done with an invocation at rest, it stays where it stands, and it completes exactly by
proceeding. -/
theorem RestsAt.run {host : Host ω} {chain : Chain} {op : Op} {r : op.Reply} {s s' : Stage ω}
    {start : Invocation} (hs : RestsAt start s.invocation)
    (h : op.run host chain.length (Invocation.proceed host chain) s = .ok r s') :
    RestsAt start s'.invocation ∧
      (s'.invocation.completed = true ↔ s.invocation.completed = true ∨ op = .proceed) := by
  have hsame : s'.invocation = s.invocation → op ≠ .proceed → RestsAt start s'.invocation ∧
      (s'.invocation.completed = true ↔ s.invocation.completed = true ∨ op = .proceed) := by
    intro hi hop
    rw [hi]
    exact ⟨hs, by simp [hop]⟩
  cases op with
  | act a => exact hsame (run_act h) (by simp)
  | fork copy => exact hsame (run_fork h) (by simp)
  | setArguments vs | setArgument n v | setAttribute key v | removeAttribute key =>
    cases h
    exact ⟨⟨hs.call, hs.cursor, hs.depth⟩, (or_iff_left (by simp)).symm⟩
  | proceed =>
    cases hc : s.invocation.completed with
    | true =>
      have hrefused : Op.run host chain.length (proceed host chain) .proceed s = _ :=
        Nesting.outermost_of_completed hs.depth hc
      rw [hrefused] at h
      cases h
      exact ⟨hs, by simp [hc]⟩
    | false =>
      have hp := hs.proceeds hc host chain
      rw [show proceed host chain s = _ from h] at hp
      generalize Nesting.onward host start.call chain start.cursor s.carried = o at hp
      cases hp with
      | ok hplace =>
        rw [show s' = _ from hplace]
        exact ⟨⟨rfl, rfl, rfl⟩, by simp [Carried.stage]⟩

end Invocation

/-- An invocation and its clones as a client holds them, the world and the journal. -/
structure Family (ω : Type) where
  members : List Invocation
  world : ω
  journal : List Entry := []

namespace Family

/-- What a client may do: with one of a family what interceptors may do, or clone it. Else anything may
happen to the world and the journal. -/
inductive Move
  | perform (member : Nat) (op : Op)
  | clone (member : Nat) (arguments : List Value)
  | elsewhere

def stage (t : Family ω) (i : Invocation) : Stage ω := ⟨i, t.world, t.journal⟩

/-- The moves that come to an end. -/
inductive Step (host : Host ω) (chain : Chain) : Family ω → Move → Family ω → Prop
  | perform {t : Family ω} {n : Nat} {i : Invocation} (held : t.members[n]? = some i) (op : Op)
      {r : op.Reply} {s : Stage ω}
      (performed : op.run host chain.length (Invocation.proceed host chain) (t.stage i) = .ok r s) :
      Step host chain t (.perform n op) ⟨t.members.set n s.invocation, s.world, s.journal⟩
  | clone {t : Family ω} {n : Nat} {i : Invocation} (held : t.members[n]? = some i)
      (arguments : List Value) :
      Step host chain t (.clone n arguments) { t with members := t.members ++ [i.cloneWith arguments] }
  | elsewhere {t : Family ω} (world : ω) (journal : List Entry) :
      Step host chain t .elsewhere { t with world, journal }

inductive Reaches (host : Host ω) (chain : Chain) (start : Family ω) : List Move → Family ω → Prop
  | start : Reaches host chain start [] start
  | move {moves : List Move} {m : Move} {t t' : Family ω} (reached : Reaches host chain start moves t)
      (step : Step host chain t m t') : Reaches host chain start (moves ++ [m]) t'

variable {host : Host ω} {chain : Chain} {start : Invocation} {moves : List Move} {t t' : Family ω}

/-- After some moves all members rest where the first one stood, and those have completed that were let
proceed. -/
structure Settled (start : Invocation) (moves : List Move) (t : Family ω) : Prop where
  known : ∀ n op, Move.perform n op ∈ moves → n < t.members.length
  rests : ∀ (n : Nat) i, t.members[n]? = some i → start.RestsAt i
  completed : ∀ (n : Nat) i, t.members[n]? = some i →
    (i.completed = true ↔ Move.perform n .proceed ∈ moves)

theorem Settled.perform {n : Nat} {i : Invocation} {op : Op} {r : op.Reply} {s : Stage ω}
    (ht : Settled start moves t) (held : t.members[n]? = some i)
    (performed : op.run host chain.length (Invocation.proceed host chain) (t.stage i) = .ok r s) :
    Settled start (moves ++ [.perform n op]) ⟨t.members.set n s.invocation, s.world, s.journal⟩ := by
  have hn : n < t.members.length := (List.getElem?_eq_some_iff.mp held).1
  obtain ⟨hrests, hcompleted⟩ := Invocation.RestsAt.run (ht.rests n i held) performed
  have hmember : ∀ (k : Nat) j, (t.members.set n s.invocation)[k]? = some j →
      k = n ∧ j = s.invocation ∨ k ≠ n ∧ t.members[k]? = some j := by
    intro k j hj
    by_cases hk : k = n
    · rw [hk, List.getElem?_set_self hn] at hj
      exact .inl ⟨hk, (Option.some.inj hj).symm⟩
    · rw [List.getElem?_set_ne (Ne.symm hk)] at hj
      exact .inr ⟨hk, hj⟩
  refine ⟨fun k op' hk => ?_, fun k j hj => ?_, fun k j hj => ?_⟩
  · rw [List.length_set]
    obtain hk | hk := List.mem_append.mp hk
    · exact ht.known k op' hk
    · cases List.mem_singleton.mp hk
      exact hn
  · obtain ⟨rfl, rfl⟩ | ⟨-, hj⟩ := hmember k j hj
    · exact hrests
    · exact ht.rests k j hj
  · obtain ⟨rfl, rfl⟩ | ⟨hk, hj⟩ := hmember k j hj
    · have hi := ht.completed k i held
      simp [hcompleted, Family.stage, hi, eq_comm]
    · simp [ht.completed k j hj, hk]

theorem Settled.clone {n : Nat} {i : Invocation} (ht : Settled start moves t)
    (held : t.members[n]? = some i) (arguments : List Value) :
    Settled start (moves ++ [.clone n arguments])
      { t with members := t.members ++ [i.cloneWith arguments] } := by
  have hi := ht.rests n i held
  have hmember : ∀ (k : Nat) j, (t.members ++ [i.cloneWith arguments])[k]? = some j →
      t.members[k]? = some j ∨ k = t.members.length ∧ j = i.cloneWith arguments := by
    intro k j hj
    rw [List.getElem?_append] at hj
    split at hj
    · exact .inl hj
    · obtain ⟨hk, rfl⟩ := List.getElem?_eq_some_iff.mp hj
      simp only [List.length_singleton] at hk
      exact .inr ⟨by omega, by simp⟩
  have hknown : ∀ k op, Move.perform k op ∈ moves ++ [.clone n arguments] →
      k < t.members.length := fun k op hk => ht.known k op (by simpa using hk)
  refine ⟨fun k op hk => ?_, fun k j hj => ?_, fun k j hj => ?_⟩
  · have := hknown k op hk
    rw [List.length_append]
    omega
  · obtain hj | ⟨-, rfl⟩ := hmember k j hj
    · exact ht.rests k j hj
    · exact ⟨hi.call, hi.cursor, rfl⟩
  · obtain hj | ⟨rfl, rfl⟩ := hmember k j hj
    · simp [ht.completed k j hj]
    · have hnever : Move.perform t.members.length .proceed ∉ moves ++ [.clone n arguments] :=
        fun hk => Nat.lt_irrefl _ (hknown _ _ hk)
      simp only [hnever, iff_false]
      simp [Invocation.cloneWith]

/-- What holds of a family after some moves holds after any other. -/
theorem Settled.step {m : Move} (ht : Settled start moves t) (h : Step host chain t m t') :
    Settled start (moves ++ [m]) t' := by
  cases h with
  | perform held op performed => exact ht.perform held performed
  | clone held arguments => exact ht.clone held arguments
  | elsewhere world journal =>
    exact ⟨fun k op hk => ht.known k op (by simpa using hk), ht.rests, by simpa using ht.completed⟩

theorem Reaches.settled {world : ω} {journal : List Entry}
    (fresh : start.place = ⟨start.cursor, 0, false⟩)
    (h : Reaches host chain ⟨[start], world, journal⟩ moves t) : Settled start moves t := by
  have hdepth : start.depth = 0 := congrArg Place.depth fresh
  have hcompleted : start.completed = false := congrArg Place.completed fresh
  induction h with
  | start =>
    have hmember : ∀ (n : Nat) i, [start][n]? = some i → i = start := fun n i hi =>
      List.mem_singleton.mp (List.mem_of_getElem? hi)
    refine ⟨by simp, fun n i hi => ?_, fun n i hi => ?_⟩
    · rw [hmember n i hi]
      exact ⟨rfl, rfl, hdepth⟩
    · simp [hmember n i hi, hcompleted]
  | move _ step ih => exact ih.step step

/-- What one can rely on with a member of a family after some moves. -/
structure Completes (host : Host ω) (chain : Chain) (start : Invocation) (moves : List Move)
    (t : Family ω) (n : Nat) (i : Invocation) : Prop where
  rests : start.RestsAt i
  completed : i.completed = true ↔ Move.perform n .proceed ∈ moves
  /-- It proceeds from where the first member stood. -/
  first : i.completed = false →
    Paired (Nesting.AtPlace start.call ⟨start.cursor, 0, true⟩) Nesting.Leaves
      (Invocation.proceed host chain (t.stage i))
      (Nesting.onward host start.call chain start.cursor (t.stage i).carried)
  /-- None of its interceptors ever sees it completed. -/
  unseen : i.completed = false → ∀ alarm,
    Paired (Nesting.AtPlace start.call ⟨start.cursor, 0, true⟩) Nesting.Leaves
      (Invocation.proceed host (Chain.vigilant alarm chain) (t.stage i))
      (Nesting.onward host start.call chain start.cursor (t.stage i).carried)
  /-- Once it has completed it is refused, and nothing happens, under whatever host and chain. -/
  refused : i.completed = true → ∀ (host' : Host ω) (chain' : Chain),
    Invocation.proceed host' chain' (t.stage i) =
      .ok (.error (.ofFault (.invocationCompleted start.method.text))) (t.stage i)
  /-- What is done with another member does nothing to it. -/
  apart : ∀ k op t', k ≠ n → Step host chain t (.perform k op) t' → t'.members[n]? = some i

theorem Settled.completes (ht : Settled start moves t) {n : Nat} {i : Invocation}
    (hi : t.members[n]? = some i) : Completes host chain start moves t n i := by
  have hrests := ht.rests n i hi
  refine ⟨hrests, ht.completed n i hi, fun hc => ?_, fun hc alarm => ?_, fun hc host' chain' => ?_,
    fun k op t' hk h => ?_⟩
  · exact Invocation.RestsAt.proceeds hrests hc host chain
  · have h := Invocation.RestsAt.proceeds (s := t.stage i) hrests hc host (Chain.vigilant alarm chain)
    rwa [Nesting.onward_vigilant] at h
  · have hmethod : i.method = start.method := congrArg Call.method hrests.call
    rw [← hmethod]
    exact Nesting.outermost_of_completed hrests.depth hc
  · cases h with
    | perform _ _ _ =>
      rw [List.getElem?_set_ne hk]
      exact hi

/-- Invocations complete once. Take an invocation that has not proceeded, wherever it stands, as every clone
is that is taken of an invocation at any moment. However it and its clones are let proceed and are cloned,
each completes by its first proceeding, which runs the chain from where it stands and leaves it there, and
each is refused from then on; none sees itself completed from within. Whatever an interceptor does in the
chain, its invocation stays at its place and has not completed, and proceeding means the rest of the chain
however often it does so. A copy that it lets proceed runs that rest once, with a completion of its own,
whether or not the invocation has completed, and leaves the invocation as it was. -/
theorem members_complete_once (host : Host ω) (chain : Chain) (start : Invocation) (world : ω)
    (journal : List Entry) (fresh : start.place = ⟨start.cursor, 0, false⟩) (moves : List Move)
    (t : Family ω) (h : Reaches host chain ⟨[start], world, journal⟩ moves t) :
    (∀ (n : Nat) i, t.members[n]? = some i → Completes host chain start moves t n i) ∧
    (∀ (i : Invocation) arguments, (i.cloneWith arguments).call = i.call ∧
      (i.cloneWith arguments).place = ⟨i.cursor, 0, false⟩) ∧
    (∀ (call : Call) (k n depth : Nat), chain.length ≤ n + (k + 1) →
      ∀ (c : Carried ω) (β : Type) (p : Program β),
        Paired (Nesting.AtPlace call ⟨k + 1, depth + 1, false⟩) Nesting.Leaves
          (p.run host chain.length (Invocation.outermost (Invocation.advance host chain n))
            (c.stage call ⟨k + 1, depth + 1, false⟩))
          (Routine.run (Nesting.operation Execution.unsigned host call chain.length k
            (Nesting.onward host call chain (k + 1))) p c)) ∧
    ∀ (call : Call) (place : Place) (n : Nat), chain.length ≤ n + place.cursor →
      ∀ (c : Carried ω) (copy : Copy),
        Paired (Nesting.AtPlace call place) Nesting.Leaves
          (Op.run host chain.length (Invocation.outermost (Invocation.advance host chain n))
            (.fork copy) (c.stage call place))
          (Nesting.fork call (Nesting.onward host call chain place.cursor) copy c) := by
  refine ⟨fun n i hi => (h.settled fresh).completes hi, fun i arguments => ⟨rfl, rfl⟩, ?_, ?_⟩
  · intro call k n depth hn c β p
    have hop : ∀ op : Op, Nesting.Follows call ⟨k + 1, depth + 1, false⟩ ⟨k + 1, depth + 1, false⟩
        (op.run host chain.length (Invocation.outermost (Invocation.advance host chain n)))
        (Nesting.operation Execution.unsigned host call chain.length k
          (Nesting.onward host call chain (k + 1)) op) :=
      @Nesting.follows_operation _ Execution.unsigned host _ _ _ _ _ _ rfl rfl (by simp)
        fun d => Nesting.follows_onward chain n (k + 1) d hn
    exact Simulates.run hop p _ c rfl
  · intro call place n hn c copy
    exact @Nesting.follows_fork _ Execution.unsigned host _ _ _ _ _
      (Nesting.follows_onward chain n place.cursor 0 hn) copy _ c rfl

/-- Counts the commands that it obeys. -/
def tally : Host Nat := ⟨fun _ w => ⟨.ok (.ok .unit), w + 1, []⟩, id⟩

def insistent : Chain := [⟨⟨"insistent", do
  let _ ← Program.proceed
  Program.proceed⟩, none⟩]

def errand : Invocation where
  proxy := .unit
  target := some (.bean ⟨0, "shop"⟩)
  targetClass := none
  method := ⟨"Shop", "order", []⟩
  arguments := []

/-- An errand is cloned and proceeds, which reaches its target twice; it is refused afterwards, while its
clone has still to proceed. -/
theorem errand_completes : ∃ t : Family Nat,
    Reaches tally insistent ⟨[errand], 0, []⟩ [.clone 0 [], .perform 0 .proceed] t ∧
      t.world = 2 ∧ t.members.map (·.completed) = [true, false] ∧
      Completes tally insistent errand [.clone 0 [], .perform 0 .proceed] t 0
        { errand with completed := true } ∧
      Completes tally insistent errand [.clone 0 [], .perform 0 .proceed] t 1 errand := by
  have hcloned : Reaches tally insistent ⟨[errand], 0, []⟩ ([] ++ [.clone 0 []])
      ⟨[errand, errand], 0, []⟩ := .move .start (.clone (i := errand) rfl [])
  have h : Reaches tally insistent ⟨[errand], 0, []⟩ [.clone 0 [], .perform 0 .proceed]
      ⟨[{ errand with completed := true }, errand], 2, []⟩ :=
    .move hcloned (@Step.perform _ _ _ _ 0 errand rfl .proceed (.ok .unit : Outcome Value)
      ⟨{ errand with completed := true }, 2, []⟩ rfl)
  have hall := (members_complete_once tally insistent errand 0 [] rfl _ _ h).1
  exact ⟨_, h, rfl, rfl, hall 0 _ rfl, hall 1 _ rfl⟩

end Family
end Weaving
