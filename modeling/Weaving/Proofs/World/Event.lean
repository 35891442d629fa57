import Weaving.Program
import Weaving.Source

/-! What happens to target sources and to targets while calls are made, and the form that it has: each call
takes its target at its start and gives it back at its end, and whatever it does in between, calls within it
included, lies between the two. -/
namespace Weaving.Watch

inductive Event
  | acquired (source : Nat) (outcome : Outcome (Option Target))
  /-- The method that was called is invoked on a target. -/
  | reached (target : Target)
  | swapped (source : Nat) (replacement : Target)
  /-- A call is through with its chain, and this comes of it. -/
  | finished (result : Except Abort (Outcome Value))
  | released (source : Nat) (target : Target) (outcome : Outcome Unit)

namespace Event

/-- What an event makes of the sources. -/
def move : Event → List Source → List Source
  | acquired n _, ss => ss.set n (ss.getD n (.empty none)).acquire.2
  | released n t _, ss => ss.set n ((ss.getD n (.empty none)).release t).2
  | swapped n t, ss => ss.set n ((ss.getD n (.empty none)).swap t).2
  | reached _, ss | finished _, ss => ss

/-- What is said of an acquisition or a release is how the source answers. -/
def Due : Event → List Source → Prop
  | acquired n outcome, ss => outcome = (ss.getD n (.empty none)).acquire.1.2
  | released n t outcome, ss => outcome = ((ss.getD n (.empty none)).release t).1.2
  | reached _, _ | finished _, _ | swapped _ _, _ => True

/-- The events are all that happened to the sources, as it happened. -/
inductive Accounts : List Source → List Event → List Source → Prop
  | nil {ss : List Source} : Accounts ss [] ss
  | cons {e : Event} {es : List Event} {ss ss' : List Source} (due : e.Due ss)
      (rest : Accounts (e.move ss) es ss') : Accounts ss (e :: es) ss'

mutual

/-- The events of one call that takes its target from a source and ends with a result. The target is
acquired once. If there is one, it is given back once, when the call has finished, and its result stands
whatever the source answers to that. -/
inductive Bracketed : Nat → Except Abort (Outcome Value) → List Event → Prop
  | refused {n : Nat} {f : Failure} : Bracketed n (.ok (.error f)) [acquired n (.error f)]
  | bare {n : Nat} {result : Except Abort (Outcome Value)} {es : List Event} (during : During none es) :
      Bracketed n result (acquired n (.ok none) :: (es ++ [finished result]))
  | held {n : Nat} {t : Target} {result : Except Abort (Outcome Value)} {es : List Event}
      {outcome : Outcome Unit} (during : During (some t) es) :
      Bracketed n result
        (acquired n (.ok (some t)) :: (es ++ [finished result, released n t outcome]))

/-- The events while a call is on its way to a target. It reaches no other target, though targets are
swapped meanwhile, and any call within begins and ends meanwhile. -/
inductive During : Option Target → List Event → Prop
  | nil {target : Option Target} : During target []
  | reached {t : Target} {es : List Event} (rest : During (some t) es) :
      During (some t) (reached t :: es)
  | swapped {target : Option Target} {n : Nat} {t : Target} {es : List Event} (rest : During target es) :
      During target (swapped n t :: es)
  | call {target : Option Target} {n : Nat} {result : Except Abort (Outcome Value)}
      {inner es : List Event} (bracketed : Bracketed n result inner) (rest : During target es) :
      During target (inner ++ es)

end

/-- The targets that are held after some events, the latest first, if each was given back before those
that had been acquired earlier. -/
def holding : List (Nat × Target) → List Event → Option (List (Nat × Target))
  | held, [] => some held
  | held, acquired n (.ok (some t)) :: es => holding ((n, t) :: held) es
  | p :: held, released n t _ :: es => if (n, t) = p then holding held es else none
  | [], released _ _ _ :: _ => none
  | held, acquired _ (.ok none) :: es | held, acquired _ (.error _) :: es | held, reached _ :: es
  | held, swapped _ _ :: es | held, finished _ :: es => holding held es

theorem Accounts.append {es es' : List Event} {ss ss' ss'' : List Source} (h : Accounts ss es ss')
    (h' : Accounts ss' es' ss'') : Accounts ss (es ++ es') ss'' := by
  induction h with
  | nil => exact h'
  | cons due _ ih => exact .cons due (ih h')

theorem Accounts.single {e : Event} {ss : List Source} (due : e.Due ss) : Accounts ss [e] (e.move ss) :=
  .cons due .nil

theorem During.append {target : Option Target} {es' : List Event} (h' : During target es') :
    ∀ {es : List Event}, During target es → During target (es ++ es')
  | _, .nil => h'
  | _, .reached rest => .reached (append h' rest)
  | _, .swapped rest => .swapped (append h' rest)
  | _, .call bracketed rest => by
    rw [List.append_assoc]
    exact .call bracketed (append h' rest)

theorem holding_append (held : List (Nat × Target)) (es es' : List Event) :
    holding held (es ++ es') = (holding held es).bind fun held' => holding held' es' := by
  fun_induction holding held es <;> simp_all [holding]

mutual

/-- After a call the same targets are held as before. -/
theorem Bracketed.holding {n : Nat} {result : Except Abort (Outcome Value)} {es : List Event}
    (held : List (Nat × Target)) : Bracketed n result es → Event.holding held es = some held
  | .refused => rfl
  | .bare during => by simp [Event.holding, holding_append, during.holding held]
  | @Bracketed.held _ t _ _ _ during => by
    simp [Event.holding, holding_append, during.holding ((n, t) :: held)]

theorem During.holding {target : Option Target} {es : List Event} (held : List (Nat × Target)) :
    During target es → Event.holding held es = some held
  | .nil => by simp [Event.holding]
  | .reached rest => by simp [Event.holding, rest.holding held]
  | .swapped rest => by simp [Event.holding, rest.holding held]
  | .call bracketed rest => by simp [holding_append, bracketed.holding held, rest.holding held]

end

end Event
end Weaving.Watch
