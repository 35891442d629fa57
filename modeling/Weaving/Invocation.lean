import Weaving.Attributes
import Weaving.Class
import Weaving.Text.Shown

/-! An invocation is one intercepted call on its way along a chain of interceptors: what is called with
which arguments, the attributes that advice leaves for advice further on, and how far it has come. -/
namespace Weaving

structure Invocation where
  proxy : Value
  target : Option Target
  targetClass : Option Class
  method : Method
  arguments : List Value
  attributes : Attributes := []
  /-- The place in the chain of the element that comes next. -/
  cursor : Nat := 0
  /-- How many times the invocation is proceeding at the moment. -/
  depth : Nat := 0
  /-- Whether an outermost proceeding has come back. -/
  completed : Bool := false

/-- What advice sees of an invocation. -/
structure View where
  proxy : Value
  target : Option Target
  targetClass : Option Class
  method : Method
  arguments : List Value
  attributes : Attributes

/-- Where an invocation stands in its chain. -/
structure Location where
  position : Nat
  chainLength : Nat
  completed : Bool

/-- What a copy of an invocation has of its own; in the chain it stands where the invocation stood. -/
structure Copy where
  arguments : List Value
  attributes : Attributes
  completed : Bool := false

namespace Invocation

def view (i : Invocation) : View :=
  ⟨i.proxy, i.target, i.targetClass, i.method, i.arguments, i.attributes⟩

def setArguments (i : Invocation) (vs : List Value) : Invocation := { i with arguments := vs }

/-- Replaces an argument that is there, and says whether it was. -/
def setArgument (i : Invocation) (n : Nat) (v : Value) : Bool × Invocation :=
  (n < i.arguments.length, { i with arguments := i.arguments.set n v })

def setAttribute (i : Invocation) (key : String) (v : Value) : Invocation :=
  { i with attributes := i.attributes.put key v }

def removeAttribute (i : Invocation) (key : String) : Option Value × Invocation :=
  (i.attributes.find? key, { i with attributes := i.attributes.remove key })

/-- A copy with arguments of its own, which stands where the invocation stands and has not proceeded. -/
def cloneWith (i : Invocation) (vs : List Value) : Invocation :=
  { i with arguments := vs, depth := 0, completed := false }

def clone (i : Invocation) : Invocation := i.cloneWith i.arguments

/-- The written form of an invocation in a chain of a given length. -/
def shown (i : Invocation) (chainLength : Nat) : String :=
  Text.record "MethodInvocation" [("method", Text.quote i.method.text),
    ("target_class", Text.quoteOption (i.targetClass.map Class.name)),
    ("arguments", Value.shownList i.arguments), ("position", toString i.cursor),
    ("chain_len", toString chainLength), ("completed", Text.boolean i.completed)]

end Invocation
end Weaving
