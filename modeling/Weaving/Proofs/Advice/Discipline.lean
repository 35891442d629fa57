import Weaving.Proofs.Advice.Event
import Weaving.Proofs.Invocation.Refinement

/-! Chains of advice carried out. An invocation that proceeds along a chain made of advice alone performs
the events of the call one after another, and they are disciplined: how often each piece of advice runs, when
and in which order, and what comes of the call, is what the chain tells. -/
namespace Weaving.Advising

variable {ω α : Type}

def Adapted.interceptor : Adapted → Interceptor
  | before body => .before body
  | afterReturning body => .afterReturning body
  | throws t => .throws t
  | afterFinally body => .afterFinally body

/-- An element of a chain that is a piece of advice, asked for the arguments of each call if there is a
condition. -/
structure Link where
  advice : Adapted
  condition : Option MethodMatcher := none

def Link.element (l : Link) : Element := ⟨l.advice.interceptor, l.condition⟩

/-- The advice that takes part in a call with some arguments, with its place in a chain that begins at a
place. -/
def counted (call : Call) (arguments : List Value) (k : Nat) (links : List Link) : List (Nat × Adapted) :=
  (links.zipIdx k).filterMap fun p =>
    match Nesting.admits call p.1.element arguments with
    | .ok true => some (p.2, p.1.advice)
    | _ => none

/-- What is to happen next. -/
inductive Turn
  | before (place : Nat) (body : Inspection (Outcome Unit))
  | target
  | afterReturning (place : Nat) (body : Value → Inspection (Outcome Unit)) (v : Value)
  | throws (place : Nat) (t : ThrowsAdvice) (f : Failure)
  | afterFinally (place : Nat) (body : Inspection (Outcome Unit))

/-- The advice whose turn it is. -/
def Turn.advice? : Turn → Option (Nat × Adapted)
  | before k body => some (k, .before body)
  | target => none
  | afterReturning k body _ => some (k, .afterReturning body)
  | throws k t _ => some (k, .throws t)
  | afterFinally k body => some (k, .afterFinally body)

section Play

variable (host : Host ω) (call : Call) (length : Nat)

def inspect (k : Nat) (p : Inspection α) : Course ω α :=
  Routine.run (Nesting.act Execution.unsigned host call length k) p

/-- Carries out a turn, which gives an event. -/
def Turn.play : Turn → Course ω Event
  | before k body => do return .before k (← inspect host call length k body)
  | target => do return .target (← Nesting.target Execution.unsigned host call)
  | afterReturning k body v => do return .afterReturning k v (← inspect host call length k (body v))
  | throws k t f =>
    match t.handle f with
    | none => return .throws k f none
    | some react => do return .throws k f (some (← inspect host call length k react))
  | afterFinally k body => do return .afterFinally k (← inspect host call length k body)

/-- The turns of some advice and of the target, one after another, are all that happens, and these events
are what they give. -/
inductive Accounts (advice : List (Nat × Adapted)) : Carried ω → List Event → Carried ω → Prop
  | nil {c : Carried ω} : Accounts advice c [] c
  | cons (turn : Turn) {e : Event} {es : List Event} {c d c' : Carried ω}
      (mine : ∀ p, turn.advice? = some p → p ∈ advice) (played : turn.play host call length c = .ok e d)
      (rest : Accounts advice d es c') : Accounts advice c (e :: es) c'

/-- What aborts a call: the matcher of an element, or a turn that is aborted. -/
inductive Halts (links : List Link) (advice : List (Nat × Adapted)) (c : Carried ω) (a : Abort) :
    Carried ω → Prop
  | matcher {l : Link} (hl : l ∈ links)
      (aborted : Nesting.admits call l.element c.arguments = .error a) : Halts links advice c a c
  | turn (turn : Turn) {c' : Carried ω} (mine : ∀ p, turn.advice? = some p → p ∈ advice)
      (aborted : turn.play host call length c = .error a c') : Halts links advice c a c'

/-- A call comes to an end with the events that are told, or is aborted in the midst of such events. -/
inductive Unrolls (links : List Link) (advice : List (Nat × Adapted)) (c : Carried ω) :
    EStateM.Result Abort (Carried ω) (Outcome Value) → Prop
  | ended {es : List Event} {o : Outcome Value} {c' : Carried ω}
      (accounts : Accounts host call length advice c es c') (told : Told advice es o) :
      Unrolls links advice c (.ok o c')
  | halted (es more : List Event) {o : Outcome Value} {a : Abort} {d c' : Carried ω}
      (accounts : Accounts host call length advice c es d) (told : Told advice (es ++ more) o)
      (halts : Halts host call length links advice d a c') : Unrolls links advice c (.error a c')

end Play

variable {host : Host ω} {call : Call} {length k : Nat} {rest : Course ω (Outcome Value)}
  {links links' : List Link} {advice advice' : List (Nat × Adapted)} {c c' d : Carried ω} {a : Adapted}

/-- Advice that only inspects does around the rest of the chain what it does by itself. -/
theorem run_toProgram (rest : Course ω (Outcome Value)) (p : Inspection α) :
    Routine.run (Nesting.operation Execution.unsigned host call length k rest) p.toProgram =
      inspect host call length k p := by
  induction p with
  | done a => rfl
  | step op next ih => exact congrArg _ (funext ih)

theorem run_before (body : Inspection (Outcome Unit)) :
    Routine.run (Nesting.operation Execution.unsigned host call length k rest)
        (Interceptor.before body).body =
      inspect host call length k body >>= fun
        | .ok () => rest
        | .error f => pure (.error f) := by
  rw [← run_toProgram rest]
  refine (Routine.run_bind _ body.toProgram _).trans (congrArg _ (funext fun r => ?_))
  cases r with
  | ok u => exact bind_pure rest
  | error f => rfl

theorem run_afterReturning (body : Value → Inspection (Outcome Unit)) :
    Routine.run (Nesting.operation Execution.unsigned host call length k rest)
        (Interceptor.afterReturning body).body =
      rest >>= fun
        | .error f => pure (.error f)
        | .ok v => inspect host call length k (body v) >>= fun r => pure (r.map fun _ => v) := by
  refine congrArg (rest >>= ·) (funext fun o => ?_)
  cases o with
  | error f => rfl
  | ok v =>
    dsimp only
    rw [← run_toProgram rest]
    refine (Routine.run_bind _ (body v).toProgram _).trans (congrArg _ (funext fun r => ?_))
    cases r <;> rfl

/-- What the answer of a handler makes of a failure. -/
def judge (f : Failure) : Outcome Verdict → Outcome Value
  | .ok .rethrow => .error f
  | .ok (.recover v) => .ok v
  | .error g => .error g

theorem run_throws (t : ThrowsAdvice) :
    Routine.run (Nesting.operation Execution.unsigned host call length k rest)
        (Interceptor.throws t).body =
      rest >>= fun
        | .ok v => pure (.ok v)
        | .error f => match t.handle f with
          | none => pure (.error f)
          | some react => inspect host call length k react >>= fun r => pure (judge f r) := by
  refine congrArg (rest >>= ·) (funext fun o => ?_)
  cases o with
  | ok v => rfl
  | error f =>
    dsimp only
    change Routine.run _ (match t.handle f with
      | none => _
      | some react => _ : Program (Outcome Value)) = _
    cases t.handle f with
    | none => rfl
    | some react =>
      dsimp only
      rw [← run_toProgram rest]
      refine (Routine.run_bind _ react.toProgram _).trans (congrArg _ (funext fun r => ?_))
      obtain f | _ | v := r <;> rfl

theorem run_afterFinally (body : Inspection (Outcome Unit)) :
    Routine.run (Nesting.operation Execution.unsigned host call length k rest)
        (Interceptor.afterFinally body).body =
      rest >>= fun o => inspect host call length k body >>= fun r => pure (r.bind fun _ => o) := by
  refine congrArg (rest >>= ·) (funext fun o => ?_)
  rw [← run_toProgram rest]
  refine (Routine.run_bind _ body.toProgram _).trans (congrArg _ (funext fun r => ?_))
  cases r <;> rfl

theorem command_keeps {sign : Execution → List Entry} {m : Command} {r : Outcome Value}
    (h : Nesting.command sign host m c = .ok r d) : d.arguments = c.arguments := by
  unfold Nesting.command at h
  dsimp only at h
  split at h <;> cases h
  rfl

theorem inspect_keeps {p : Inspection α} {r : α} (h : inspect host call length k p c = .ok r d) :
    d.arguments = c.arguments := by
  induction p generalizing c with
  | done a =>
    cases h
    rfl
  | step op next ih =>
    obtain ⟨x, u, hx, hu⟩ := exists_of_bind_ok h
    rw [ih x hu]
    cases op with
    | look | locate | clock | note e =>
      cases hx
      rfl
    | command m => exact command_keeps hx

theorem play_unhandled {t : ThrowsAdvice} {f : Failure} (h : t.handle f = none) :
    (Turn.throws k t f).play host call length = pure (.throws k f none) := by
  simp only [Turn.play, h]

theorem play_handled {t : ThrowsAdvice} {f : Failure} {react : Inspection (Outcome Verdict)}
    (h : t.handle f = some react) : (Turn.throws k t f).play host call length =
      inspect host call length k react >>= fun r => pure (.throws k f (some r)) := by
  simp only [Turn.play, h]

theorem Accounts.mono {es : List Event} (h : Accounts host call length advice c es d)
    (hsub : advice ⊆ advice') : Accounts host call length advice' c es d := by
  induction h with
  | nil => exact .nil
  | cons turn mine played _ ih => exact .cons turn (fun p hp => hsub (mine p hp)) played ih

theorem Accounts.append {es es' : List Event} (h : Accounts host call length advice c es d)
    (h' : Accounts host call length advice d es' c') :
    Accounts host call length advice c (es ++ es') c' := by
  induction h with
  | nil => exact h'
  | cons turn mine played _ ih => exact .cons turn mine played (ih h')

theorem Halts.mono {x : Abort} (h : Halts host call length links advice c x d) (hlinks : links ⊆ links')
    (hsub : advice ⊆ advice') : Halts host call length links' advice' c x d := by
  cases h with
  | matcher hl aborted => exact .matcher (hlinks hl) aborted
  | turn turn mine aborted => exact .turn turn (fun p hp => hsub (mine p hp)) aborted

/-- What advice does on the way back, given the outcome of the rest of the chain. -/
inductive Settles (host : Host ω) (call : Call) (length k : Nat) (a : Adapted) (o : Outcome Value)
    (c : Carried ω) : EStateM.Result Abort (Carried ω) (Outcome Value) → Prop
  | ignored (ignores : Ignores a o) : Settles host call length k a o c (.ok o c)
  | heeded (turn : Turn) {e : Event} {o' : Outcome Value} {d : Carried ω}
      (own : turn.advice? = some (k, a)) (played : turn.play host call length c = .ok e d)
      (heeds : Heeds k a o e) (settled : e.settle (some o) = some o') :
      Settles host call length k a o c (.ok o' d)
  | halted (turn : Turn) {x : Abort} {d : Carried ω} (own : turn.advice? = some (k, a))
      (aborted : turn.play host call length c = .error x d) : Settles host call length k a o c (.error x d)

theorem Unrolls.after {l : Link} {x : Course ω (Outcome Value)}
    {f : Outcome Value → Course ω (Outcome Value)} (hafter : ∀ body, a ≠ .before body)
    (h : Unrolls host call length links advice c (x c))
    (hf : ∀ o d, Settles host call length k a o d (f o d)) :
    Unrolls host call length (l :: links) ((k, a) :: advice) c ((x >>= f) c) := by
  have hsub : advice ⊆ (k, a) :: advice := List.subset_cons_self _ _
  have hlinks : links ⊆ l :: links := List.subset_cons_self _ _
  have hmine : ∀ turn : Turn, turn.advice? = some (k, a) →
      ∀ p, turn.advice? = some p → p ∈ (k, a) :: advice := by
    intro turn hturn p hp
    rw [Option.some.inj (hp.symm.trans hturn)]
    exact List.mem_cons_self
  cases hx : x c with
  | error e c' =>
    rw [hx] at h
    obtain - | ⟨es, more, accounts, told, halts⟩ := h
    rw [bind_of_error hx]
    obtain ⟨more', o', htold⟩ := told.onward k hafter
    rw [List.append_assoc] at htold
    exact .halted es _ (accounts.mono hsub) htold (halts.mono hlinks hsub)
  | ok o d =>
    rw [hx] at h
    obtain ⟨accounts, told⟩ | - := h
    rw [bind_of_ok hx]
    have hs := hf o d
    generalize f o d = r at hs
    cases hs with
    | ignored ignores => exact .ended (accounts.mono hsub) (told.ignored ignores)
    | heeded turn own played heeds settled =>
      exact .ended ((accounts.mono hsub).append (.cons turn (hmine turn own) played .nil))
        (told.heeded heeds settled)
    | halted turn own aborted =>
      obtain ⟨more, o', htold⟩ := told.onward k hafter
      exact .halted _ more (accounts.mono hsub) htold (.turn turn (hmine turn own) aborted)

/-- Advice that inspects on the way back, whatever it answers. -/
theorem Settles.inspect {β : Type} {p : Inspection β} (turn : Turn) {event : β → Event}
    {result : β → Outcome Value} {o : Outcome Value} (own : turn.advice? = some (k, a))
    (hplay : turn.play host call length =
      inspect host call length k p >>= fun r => pure (event r))
    (heeds : ∀ r, Heeds k a o (event r)) (settled : ∀ r, (event r).settle (some o) = some (result r)) :
    Settles host call length k a o c
      ((Advising.inspect host call length k p >>= fun r => pure (result r)) c) := by
  cases hr : Advising.inspect host call length k p c with
  | ok r d =>
    rw [bind_of_ok hr]
    refine .heeded turn own ?_ (heeds r) (settled r)
    rw [hplay, bind_of_ok hr]
    rfl
  | error x d =>
    rw [bind_of_error hr]
    refine .halted turn own ?_
    rw [hplay, bind_of_error hr]

/-- Before advice that succeeds lets the rest of the chain have its way. -/
theorem unrolls_before (l : Link) (body : Inspection (Outcome Unit))
    (h : ∀ d, d.arguments = c.arguments → Unrolls host call length links advice d (rest d)) :
    Unrolls host call length (l :: links) ((k, .before body) :: advice) c
      ((inspect host call length k body >>= fun
        | .ok () => rest
        | .error f => pure (.error f)) c) := by
  have hsub : advice ⊆ (k, .before body) :: advice := List.subset_cons_self _ _
  have hmine : ∀ p, (Turn.before k body).advice? = some p → p ∈ (k, Adapted.before body) :: advice := by
    rintro p ⟨⟩
    exact List.mem_cons_self
  cases hr : inspect host call length k body c with
  | error x d =>
    rw [bind_of_error hr]
    obtain ⟨es, o, htold⟩ := Told.total ((k, .before body) :: advice)
    exact .halted [] es .nil htold (.turn (.before k body) hmine (bind_of_error hr))
  | ok r d =>
    have hplayed : (Turn.before k body).play host call length c = .ok (.before k r) d :=
      bind_of_ok hr
    rw [bind_of_ok hr]
    obtain f | ⟨⟩ := r
    · exact .ended (.cons _ hmine hplayed .nil) (.failed k body advice f)
    · have hrest := h d (inspect_keeps hr)
      dsimp only
      generalize rest d = r at hrest
      cases hrest with
      | ended accounts told => exact .ended (.cons _ hmine hplayed (accounts.mono hsub)) told.passed
      | halted es more accounts told halts =>
        exact .halted _ more (.cons _ hmine hplayed (accounts.mono hsub)) told.passed
          (halts.mono (List.subset_cons_self _ _) hsub)

/-- What a piece of advice does around the rest of the chain, told with its place. -/
theorem unrolls_advice (l : Link)
    (h : ∀ d, d.arguments = c.arguments → Unrolls host call length links advice d (rest d)) :
    Unrolls host call length (l :: links) ((k, l.advice) :: advice) c
      (Routine.run (Nesting.operation Execution.unsigned host call length k rest)
        l.advice.interceptor.body c) := by
  obtain ⟨a, condition⟩ := l
  cases a with
  | before body =>
    simp only [Adapted.interceptor, run_before]
    exact unrolls_before _ body h
  | afterReturning body =>
    simp only [Adapted.interceptor, run_afterReturning]
    refine (h c rfl).after (by simp) fun o d => ?_
    cases o with
    | error f => exact .ignored (.failed body f)
    | ok v =>
      exact .inspect (.afterReturning k body v) rfl rfl (fun r => .returned body v r)
        fun r => by cases r <;> rfl
  | throws t =>
    simp only [Adapted.interceptor, run_throws]
    refine (h c rfl).after (by simp) fun o d => ?_
    cases o with
    | ok v => exact .ignored (.returned t v)
    | error f =>
      dsimp only
      cases ht : t.handle f with
      | none =>
        exact .heeded (.throws k t f) rfl (by rw [play_unhandled ht]; rfl) (.thrown t f none) rfl
      | some react =>
        exact .inspect (.throws k t f) rfl (play_handled ht) (fun r => .thrown t f (some r))
          fun r => by obtain g | _ | v := r <;> rfl
  | afterFinally body =>
    simp only [Adapted.interceptor, run_afterFinally]
    refine (h c rfl).after (by simp) fun o d => ?_
    exact .inspect (.afterFinally k body) rfl rfl (fun r => .anyhow body o r)
      fun r => by cases r <;> rfl

theorem run_link (l : Link) (chain : Chain) :
    Nesting.run Execution.unsigned host call length k (l.element :: chain) c =
      match Nesting.admits call l.element c.arguments with
      | .error x => .error x c
      | .ok true => Routine.run (Nesting.operation Execution.unsigned host call length k
          (Nesting.run Execution.unsigned host call length (k + 1) chain)) l.advice.interceptor.body c
      | .ok false => Nesting.run Execution.unsigned host call length (k + 1) chain c := by
  have hjournal : ({ c with journal := c.journal ++ [] } : Carried ω) = c := by rw [List.append_nil]
  change (match Nesting.admits call l.element c.arguments with
    | .error x => throw x
    | .ok true => Nesting.journal [] >>= fun _ => _
    | .ok false => _ : Course ω (Outcome Value)) c = _
  obtain x | _ | _ := Nesting.admits call l.element c.arguments
  · rfl
  · rfl
  · refine (bind_of_ok (t := c) (a := ()) ?_).trans rfl
    exact congrArg (EStateM.Result.ok ()) hjournal

theorem counted_cons (arguments : List Value) (l : Link) :
    counted call arguments k (l :: links) =
      match Nesting.admits call l.element arguments with
      | .ok true => (k, l.advice) :: counted call arguments (k + 1) links
      | _ => counted call arguments (k + 1) links := by
  rw [counted, List.zipIdx_cons, List.filterMap_cons]
  obtain x | _ | _ := Nesting.admits call l.element arguments <;> rfl

/-- The advice that counts stands in the order of the chain. -/
theorem counted_sorted (call : Call) (arguments : List Value) (links : List Link) (k : Nat) :
    (counted call arguments k links).Pairwise (fun p q => p.1 < q.1) ∧
      ∀ p ∈ counted call arguments k links, k ≤ p.1 := by
  induction links generalizing k with
  | nil => exact ⟨.nil, by simp [counted]⟩
  | cons l links ih =>
    obtain ⟨hsorted, hplaces⟩ := ih (k + 1)
    have hskip : ∀ p ∈ counted call arguments (k + 1) links, k ≤ p.1 :=
      fun p hp => Nat.le_of_succ_le (hplaces p hp)
    rw [counted_cons]
    split
    · refine ⟨List.pairwise_cons.mpr ⟨hplaces, hsorted⟩, fun p hp => ?_⟩
      obtain rfl | hp := List.mem_cons.mp hp
      · exact Nat.le_refl k
      · exact hskip p hp
    · exact ⟨hsorted, hskip⟩

theorem Unrolls.skip {l : Link} {r : EStateM.Result Abort (Carried ω) (Outcome Value)}
    (h : Unrolls host call length links advice c r) : Unrolls host call length (l :: links) advice c r := by
  cases h with
  | ended accounts told => exact .ended accounts told
  | halted es more accounts told halts =>
    exact .halted es more accounts told (halts.mono (List.subset_cons_self _ _) (List.Subset.refl _))

/-- The rest of a chain of advice, from a place on, does what is told of the advice that counts. -/
theorem unrolls_run (host : Host ω) (call : Call) (length : Nat) (links : List Link) (k : Nat)
    (c : Carried ω) :
    Unrolls host call length links (counted call c.arguments k links) c
      (Nesting.run Execution.unsigned host call length k (links.map Link.element) c) := by
  induction links generalizing k c with
  | nil =>
    change Unrolls host call length [] [] c (Nesting.target Execution.unsigned host call c)
    have hnobody : ∀ p, Turn.target.advice? = some p → p ∈ ([] : List (Nat × Adapted)) := by
      intro p hp
      cases hp
    cases ht : Nesting.target Execution.unsigned host call c with
    | ok o d => exact .ended (.cons .target hnobody (bind_of_ok ht) .nil) (.target o)
    | error x d =>
      exact .halted [] _ .nil (.target (.ok .unit)) (.turn .target hnobody (bind_of_error ht))
  | cons l links ih =>
    rw [List.map_cons, run_link, counted_cons]
    cases hadmits : Nesting.admits call l.element c.arguments with
    | error x =>
      obtain ⟨es, o, htold⟩ := Told.total (counted call c.arguments (k + 1) links)
      exact .halted [] es .nil htold (.matcher List.mem_cons_self hadmits)
    | ok admitted =>
      cases admitted with
      | false => exact (ih (k + 1) c).skip
      | true =>
        refine unrolls_advice l fun d hd => ?_
        rw [← hd]
        exact ih (k + 1) d

/-- A chain of advice is carried out with discipline. An invocation that proceeds along a chain made of
before, after-returning, throws and after-finally advice, in any order, comes back when a run of events is
over that is disciplined for the advice that counts: static advice, and dynamic advice whose matcher accepts
the arguments. Before advice runs in the order of the chain until one fails; the target is called once if
none does, and not at all otherwise; the other advice runs in reverse order, after-finally advice once if
all before advice ahead of it has succeeded, after-returning and throws advice once if what is below ends
with a value or a failure; and the outcome is what each of them makes of the outcome below it. If the call
does not come back, then a matcher, a piece of advice or the target has aborted it in the midst of such
events. -/
theorem proceed_disciplined (host : Host ω) (links : List Link) (call : Call) (c : Carried ω) :
    match Invocation.proceed host (links.map Link.element) (c.stage call ⟨0, 0, false⟩) with
    | .ok o s => ∃ es c', s = c'.stage call ⟨0, 0, true⟩ ∧
        Accounts host call links.length (counted call c.arguments 0 links) c es c' ∧
        Disciplined (counted call c.arguments 0 links) es o
    | .error a s => ∃ es more o d c', s.world = c'.world ∧ s.journal = c'.journal ∧
        Accounts host call links.length (counted call c.arguments 0 links) c es d ∧
        Disciplined (counted call c.arguments 0 links) (es ++ more) o ∧
        Halts host call links.length links (counted call c.arguments 0 links) d a c' := by
  have hsorted := (counted_sorted call c.arguments links 0).1
  have hrun := unrolls_run host call links.length links 0 c
  have hfollows : Nesting.Follows call ⟨0, 0, false⟩ ⟨0, 0, true⟩
      (Invocation.proceed host (links.map Link.element)) _ := Nesting.follows_proceed _ 0
  have hpaired := hfollows _ c rfl
  rw [Nesting.onward, List.length_map, List.drop_zero] at hpaired
  generalize Nesting.run Execution.unsigned host call links.length 0 (links.map Link.element) c = r
    at hrun hpaired
  generalize Invocation.proceed host (links.map Link.element) (c.stage call ⟨0, 0, false⟩) = r'
    at hpaired
  cases hpaired with
  | ok hplace =>
    obtain ⟨accounts, told⟩ | - := hrun
    exact ⟨_, _, hplace, accounts, told.disciplined hsorted⟩
  | error hleaves =>
    obtain - | ⟨es, more, accounts, told, halts⟩ := hrun
    exact ⟨es, more, _, _, _, hleaves.1, hleaves.2, accounts, told.disciplined hsorted, halts⟩

end Weaving.Advising
