import Weaving.Failure
import Weaving.Invocation
import Weaving.Journal
import Weaving.Routine

/-! What advice does, as routines. An inspection looks at an invocation, leaves notes and gives commands
to the world around it. A program may besides change the arguments and attributes, let the call
proceed any number of times, and let copies of it proceed. -/
namespace Weaving

/-- Orders to the world around an invocation. Aspects and advisors are named by their place in a
catalogue that the world keeps. -/
inductive Command
  | call (receiver : Target) (method : Method) (arguments : List Value)
  | register (aspect : Nat)
  | registerAdvisor (advisor : Nat)
  | unregister (aspect : String)
  | clearRegistry
  | swap (source : Nat) (replacement : Target)

/-- What all advice may do. -/
inductive Act
  | look
  | locate
  | clock
  | note (e : Entry)
  | command (c : Command)

def Act.Reply : Act → Type
  | look => View
  | locate => Location
  | clock => Nat
  | note _ => Unit
  | command _ => Outcome Value

/-- What an interceptor may do. -/
inductive Op
  | act (a : Act)
  | setArguments (arguments : List Value)
  | setArgument (index : Nat) (v : Value)
  | setAttribute (key : String) (v : Value)
  | removeAttribute (key : String)
  | proceed
  | fork (copy : Copy)

def Op.Reply : Op → Type
  | act a => a.Reply
  | setArguments _ => Unit
  | setArgument _ _ => Bool
  | setAttribute _ _ => Unit
  | removeAttribute _ => Option Value
  | proceed => Outcome Value
  | fork _ => Outcome Value × Copy

abbrev Inspection := Routine Act Act.Reply

abbrev Program := Routine Op Op.Reply

namespace Inspection

def look : Inspection View := Routine.perform Act.look

def locate : Inspection Location := Routine.perform Act.locate

def note (e : Entry) : Inspection Unit := Routine.perform (Act.note e)

def command (c : Command) : Inspection (Outcome Value) := Routine.perform (Act.command c)

/-- Every inspection is a program. -/
def toProgram {α : Type} : Inspection α → Program α
  | .done a => .done a
  | .step a next => .step (.act a) fun r => toProgram (next r)

instance : MonadLift Inspection Program := ⟨toProgram⟩

end Inspection

namespace Program

def clock : Program Nat := Routine.perform (Op.act .clock)

def setArguments (vs : List Value) : Program Unit := Routine.perform (Op.setArguments vs)

def setArgument (i : Nat) (v : Value) : Program Bool := Routine.perform (Op.setArgument i v)

def setAttribute (key : String) (v : Value) : Program Unit := Routine.perform (Op.setAttribute key v)

def removeAttribute (key : String) : Program (Option Value) := Routine.perform (Op.removeAttribute key)

def proceed : Program (Outcome Value) := Routine.perform Op.proceed

def fork (c : Copy) : Program (Outcome Value × Copy) := Routine.perform (Op.fork c)

end Program

structure Interceptor where
  name : String
  body : Program (Outcome Value)

end Weaving
