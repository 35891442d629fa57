import Weaving.Expression
import Weaving.Pointcut.MethodMatcher

/-! Conditions on the method and the arguments of a call, written as data. -/
namespace Weaving.Script

inductive Condition
  | const (b : Bool)
  | length (n : Nat)
  | greater (index : Nat) (bound : Int)
  | equals (index : Nat) (v : Value)
  | named (name : String)
  | not (c : Condition)
  | and (c d : Condition)
  | or (c d : Condition)
  deriving DecidableEq, Repr

namespace Condition

def all (cs : List Condition) : Condition := cs.foldr and (const true)

def any (cs : List Condition) : Condition := cs.foldr or (const false)

/-- Whether the condition holds of arguments, and of a method if there is one. -/
def holds (m : Option Method) (args : List Value) : Condition → Bool
  | const b => b
  | length n => args.length = n
  | greater i bound => args[i]?.any fun v => v.int?.any fun x => bound < x
  | equals i v => args[i]? = some v
  | named name => m.any fun m => m.name = name
  | not c => !c.holds m args
  | and c d => c.holds m args && d.holds m args
  | or c d => c.holds m args || d.holds m args

def onCall (c : Condition) (m : Method) (args : List Value) : Bool := c.holds (some m) args

def onArguments (c : Condition) (args : List Value) : Bool := c.holds none args

end Condition

/-- Conditions on the method and the target class. -/
inductive ClassCondition
  | methodNamed (name : String)
  | declaring (type : String)
  | classNamed (name : String)
  | hasClass
  deriving DecidableEq, Repr

def ClassCondition.holds (m : Method) (c : Option Class) : ClassCondition → Bool
  | methodNamed n => m.name = n
  | declaring t => m.declaring = t
  | classNamed n => c.any fun c => c.name = n
  | hasClass => c.isSome

end Weaving.Script
