import Weaving.Pointcut.MethodMatcher
import Weaving.Program

/-! Proceeding along a chain. The cursor of an invocation names the element that comes next; an element
is carried out with the cursor moved past it and put back afterwards, so that an interceptor that
proceeds again runs the same elements again. Past the end of the chain the target is called. The first
outermost proceeding completes an invocation, and from then on proceeding is refused. -/
namespace Weaving

/-- An interceptor in a chain, and the matcher that is asked about the arguments of each call, if one
is. -/
structure Element where
  interceptor : Interceptor
  condition : Option MethodMatcher := none

namespace Element

def isDynamic (e : Element) : Bool := e.condition.isSome

def shown (e : Element) : String :=
  (if e.isDynamic then "Dynamic(" else "Interceptor(") ++ e.interceptor.name ++ ")"

/-- Whether the element takes part in a call with the arguments at hand. -/
def admits (e : Element) (i : Invocation) : Except Abort Bool :=
  match e.condition with
  | none => .ok true
  | some m => m.acceptsArgs i.method i.targetClass i.arguments

end Element

/-- How the world answers a command: the answer, unless everything is aborted, the world afterwards and
what was journalled meanwhile. -/
structure Reaction (ω α : Type) where
  result : Except Abort α
  world : ω
  entries : List Entry := []

/-- A world as invocations know it: it obeys commands and has a clock. -/
structure Host (ω : Type) where
  obey : Command → ω → Reaction ω (Outcome Value)
  clock : ω → Nat

/-- The invocation that is going on, the world and the journal. -/
structure Stage (ω : Type) where
  invocation : Invocation
  world : ω
  journal : List Entry := []

abbrev Play (ω : Type) := EStateM Abort (Stage ω)

namespace Play

variable {ω : Type}

def invocation : Play ω Invocation := do return (← get).invocation

def modifyInvocation (f : Invocation → Invocation) : Play ω Unit :=
  modify fun s => { s with invocation := f s.invocation }

def journal (e : Entry) : Play ω Unit := modify fun s => { s with journal := s.journal ++ [e] }

def command (host : Host ω) (c : Command) : Play ω (Outcome Value) := fun s =>
  let r := host.obey c s.world
  let s := { s with world := r.world, journal := s.journal ++ r.entries }
  match r.result with
  | .ok o => .ok o s
  | .error a => .error a s

end Play

variable {ω : Type}

/-- Carries out what all advice may do, in a chain of a given length. -/
def Act.run (host : Host ω) (chainLength : Nat) : (a : Act) → Play ω a.Reply
  | look => do return (← Play.invocation).view
  | locate => do
    let i ← Play.invocation
    return (⟨i.cursor, chainLength, i.completed⟩ : Location)
  | clock => do return host.clock (← get).world
  | note e => Play.journal e
  | command c => Play.command host c

def Inspection.run {α : Type} (host : Host ω) (chainLength : Nat) (p : Inspection α) : Play ω α :=
  Routine.run (fun a => a.run host chainLength) p

/-- Carries out what an interceptor may do, where `down` is what proceeding means. A copy proceeds from
where the invocation stands, with arguments, attributes and a completion of its own. -/
def Op.run (host : Host ω) (chainLength : Nat) (down : Play ω (Outcome Value)) :
    (op : Op) → Play ω op.Reply
  | act a => a.run host chainLength
  | setArguments vs => Play.modifyInvocation (·.setArguments vs)
  | setArgument n v => do
    let r := (← Play.invocation).setArgument n v
    Play.modifyInvocation fun _ => r.2
    return r.1
  | setAttribute key v => Play.modifyInvocation (·.setAttribute key v)
  | removeAttribute key => do
    let r := (← Play.invocation).removeAttribute key
    Play.modifyInvocation fun _ => r.2
    return r.1
  | proceed => down
  | fork c => do
    let held ← Play.invocation
    Play.modifyInvocation fun i =>
      { i.cloneWith c.arguments with attributes := c.attributes, completed := c.completed }
    let outcome ← down
    let copy ← Play.invocation
    Play.modifyInvocation fun _ => held
    return (outcome, (⟨copy.arguments, copy.attributes, copy.completed⟩ : Copy))

def Program.run {α : Type} (host : Host ω) (chainLength : Nat) (down : Play ω (Outcome Value))
    (p : Program α) : Play ω α :=
  Routine.run (fun op => op.run host chainLength down) p

namespace Invocation

/-- Proceeds by `inner`, unless the invocation has completed; the outermost proceeding completes it. -/
def outermost (inner : Play ω (Outcome Value)) : Play ω (Outcome Value) := do
  let i ← Play.invocation
  if i.depth = 0 ∧ i.completed then
    return .error (.ofFault (.invocationCompleted i.method.text))
  else
    Play.modifyInvocation fun i => { i with depth := i.depth + 1 }
    let outcome ← inner
    Play.modifyInvocation fun i =>
      { i with depth := i.depth - 1, completed := i.completed || i.depth - 1 = 0 }
    return outcome

/-- Calls the target itself. -/
def joinpoint (host : Host ω) : Play ω (Outcome Value) := do
  let i ← Play.invocation
  match i.target with
  | some t => Play.command host (.call t i.method i.arguments)
  | none => return .error (.ofFault (.noTarget i.method.text))

/-- Carries out the chain from the cursor on; `n` elements at most are ahead. -/
def advance (host : Host ω) (chain : List Element) : Nat → Play ω (Outcome Value)
  | 0 => joinpoint host
  | n + 1 => do
    let position := (← Play.invocation).cursor
    match chain[position]? with
    | none => joinpoint host
    | some e =>
      Play.modifyInvocation fun i => { i with cursor := position + 1 }
      match e.admits (← Play.invocation) with
      | .error a => throw a
      | .ok admitted =>
        let outcome ←
          if admitted then
            e.interceptor.body.run host chain.length (outermost (advance host chain n))
          else advance host chain n
        Play.modifyInvocation fun i => { i with cursor := position }
        return outcome

/-- Lets an invocation proceed along its chain. -/
def proceed (host : Host ω) (chain : List Element) : Play ω (Outcome Value) :=
  outermost (advance host chain chain.length)

end Invocation
end Weaving
