import Weaving.Chain

/-! Chains as nested compositions. Without a cursor a chain means this: each element runs around the
rest of the chain, and proceeding means to run that rest on the arguments and attributes at hand. There
is no position to move and no depth to count; where an element stands is known from the chain. -/
namespace Weaving

/-- What stays the same while a call is on its way. -/
structure Call where
  proxy : Value
  target : Option Target
  targetClass : Option Class
  method : Method

/-- What a call carries along: its arguments and attributes, the world and the journal. -/
structure Carried (ω : Type) where
  arguments : List Value
  attributes : Attributes
  world : ω
  journal : List Entry

abbrev Course (ω : Type) := EStateM Abort (Carried ω)

/-- What a chain sets going: the interceptor at a position, or a command, of which a call of the
target is one. -/
inductive Execution
  | interceptor (position : Nat)
  | command (c : Command)

namespace Nesting

variable {ω : Type} (sign : Execution → List Entry) (host : Host ω) (call : Call) (length : Nat)

def journal (es : List Entry) : Course ω Unit :=
  modify fun c => { c with journal := c.journal ++ es }

/-- Gives a command, signed in the journal. -/
def command (c : Command) : Course ω (Outcome Value) := fun s =>
  let r := host.obey c s.world
  let s := { s with world := r.world, journal := s.journal ++ (sign (.command c) ++ r.entries) }
  match r.result with
  | .ok o => .ok o s
  | .error a => .error a s

/-- What all advice may do in the element at a position, which sees the next one as its place. -/
def act (position : Nat) : (a : Act) → Course ω a.Reply
  | .look => do
    let c ← get
    return (⟨call.proxy, call.target, call.targetClass, call.method, c.arguments, c.attributes⟩ : View)
  | .locate => return (⟨position + 1, length, false⟩ : Location)
  | .clock => do return host.clock (← get).world
  | .note e => journal [e]
  | .command c => command sign host c

/-- Lets a copy with arguments and attributes of its own run the rest of the chain, once. -/
def fork (rest : Course ω (Outcome Value)) (copy : Copy) : Course ω (Outcome Value × Copy) :=
  if copy.completed then
    return (.error (.ofFault (.invocationCompleted call.method.text)), copy)
  else do
    let held ← get
    set { held with arguments := copy.arguments, attributes := copy.attributes }
    let outcome ← rest
    let c ← get
    set { c with arguments := held.arguments, attributes := held.attributes }
    return (outcome, ⟨c.arguments, c.attributes, true⟩)

/-- What an interceptor at a position may do around the rest of the chain. -/
def operation (position : Nat) (rest : Course ω (Outcome Value)) : (op : Op) → Course ω op.Reply
  | .act a => act sign host call length position a
  | .setArguments vs => modify fun c => { c with arguments := vs }
  | .setArgument n v =>
    modifyGet fun c => (decide (n < c.arguments.length), { c with arguments := c.arguments.set n v })
  | .setAttribute key v => modify fun c => { c with attributes := c.attributes.put key v }
  | .removeAttribute key =>
    modifyGet fun c => (c.attributes.find? key, { c with attributes := c.attributes.remove key })
  | .proceed => rest
  | .fork copy => fork call rest copy

/-- Calls the target with the arguments at hand. -/
def target : Course ω (Outcome Value) := do
  match call.target with
  | some t => command sign host (.call t call.method (← get).arguments)
  | none => return .error (.ofFault (.noTarget call.method.text))

/-- Whether an element takes part in a call with some arguments. -/
def admits (e : Element) (arguments : List Value) : Except Abort Bool :=
  match e.condition with
  | none => .ok true
  | some m => m.acceptsArgs call.method call.targetClass arguments

/-- Runs the elements of a chain that start at a position, each around those that follow. -/
def run : Nat → Chain → Course ω (Outcome Value)
  | _, [] => target sign host call
  | position, e :: rest => do
    match admits call e (← get).arguments with
    | .error a => throw a
    | .ok true =>
      journal (sign (.interceptor position))
      Routine.run (operation sign host call length position (run (position + 1) rest)) e.interceptor.body
    | .ok false => run (position + 1) rest

/-- Runs a whole chain. -/
def runChain (chain : Chain) : Course ω (Outcome Value) := run sign host call chain.length 0 chain

end Nesting

/-- Leaves no signs. -/
def Execution.unsigned : Execution → List Entry := fun _ => []

/-- The host that first journals the sign of each command. -/
def Host.signed {ω : Type} (sign : Execution → List Entry) (host : Host ω) : Host ω where
  obey c w :=
    let r := host.obey c w
    { r with entries := sign (.command c) ++ r.entries }
  clock := host.clock

/-- The program that leaves some entries in the journal. -/
def Program.sign : List Entry → Program Unit
  | [] => .done ()
  | e :: es => .step (.act (.note e)) fun _ => sign es

/-- The element whose interceptor first signs its own execution. -/
def Element.signed (es : List Entry) (e : Element) : Element :=
  { e with interceptor := { e.interceptor with body := do Program.sign es; e.interceptor.body } }

/-- The chain whose interceptors sign each of their executions. -/
def Chain.signed (sign : Execution → List Entry) (chain : Chain) : Chain :=
  chain.mapIdx fun k e => e.signed (sign (.interceptor k))

end Weaving
