import Weaving.Advice
import Weaving.Script.Condition
import Weaving.Script.Errors

/-! Scripts: advice written as lists of actions. Any advice may look at the invocation, each look
leaving a note, and may fail; around advice has a current outcome, at first the unit value, which its
actions change and which it ends with. -/
namespace Weaving.Script

inductive Look
  | log (text : String)
  | arguments
  | method
  | targetClass
  | this
  | proxy
  | attributeOf (key : String)
  | position
  | debug
  | returned
  deriving DecidableEq, Repr

def orNone : Option String → String
  | some s => s
  | none => "none"

namespace Look

/-- The look of a name, with an operand if it needs one. -/
def ofName? (name operand : String) : Option Look :=
  match name with
  | "log" => some (log operand)
  | "args" => some arguments
  | "method" => some method
  | "class" => some targetClass
  | "this" => some this
  | "proxy" => some proxy
  | "attr" => some (attributeOf operand)
  | "pos" => some position
  | "debug" => some debug
  | "ret" => some returned
  | _ => none

/-- The note that a look leaves, where `value` is the value at hand. -/
def text (v : View) (l : Location) (value : Option Value) : Look → String
  | log s => s
  | arguments => "args:[" ++ Value.renderList v.arguments ++ "]"
  | method => "method:" ++ v.method.text
  | targetClass => "class:" ++ orNone (v.targetClass.map Class.name)
  | this => "this:" ++ orNone (v.target.map Target.label)
  | proxy => "proxy:" ++ v.proxy.render
  | attributeOf key => "attr:" ++ key ++ "=" ++ orNone ((v.attributes.find? key).map Value.render)
  | position =>
    "pos:" ++ toString l.position ++ "/" ++ toString l.chainLength ++ "/" ++ Text.boolean l.completed
  | debug =>
    "debug:" ++ v.method.text ++ " " ++
      Invocation.shown ⟨v.proxy, v.target, v.targetClass, v.method, v.arguments, v.attributes,
        l.position, 0, l.completed⟩ l.chainLength
  | returned => "ret:" ++ orNone (value.map Value.render)

/-- Looks, and leaves the note. Only looks at the place in the chain ask for it. -/
def inspect (value : Option Value) (k : Look) : Inspection Unit := do
  let v ← Inspection.look
  let l ← match k with
    | position | debug => Inspection.locate
    | _ => pure ⟨0, 0, false⟩
  Inspection.note (.note (k.text v l value))

end Look

/-- An action of before, after and after-returning advice. -/
inductive Step
  | look (k : Look)
  | fail (f : Failure)
  | failIf (c : Condition) (f : Failure)

def inspectAll (value : Option Value) : List Step → Inspection (Outcome Unit)
  | [] => return .ok ()
  | .look k :: steps => do
    k.inspect value
    inspectAll value steps
  | .fail f :: _ => return .error f
  | .failIf c f :: steps => do
    let v ← Inspection.look
    if c.onCall v.method v.arguments then return .error f
    else inspectAll value steps

/-- An action of around advice. -/
inductive Move
  | look (k : Look)
  | fail (f : Failure)
  | failIf (c : Condition) (f : Failure)
  /-- Proceeds; a failure is the end. -/
  | proceed
  | attempt
  | retry (n : Nat)
  | give (v : Value)
  | giveProxy
  | stopIf (c : Condition)
  | recover (v : Value)
  | wrap (name : String)
  | context (text : String)
  | result
  | setArguments (vs : List Value)
  | setArgument (index : Nat) (v : Value)
  | setAttribute (key : String) (v : Value)
  | removeAttribute (key : String)
  | fork (arguments : Option (List Value)) (mark : Option String) (twice : Bool)
  | reenter (method : Method) (arguments : List Value)

/-- Whether a script goes on after a move, and with which current outcome. -/
inductive Progress
  | goOn (current : Outcome Value)
  | stop (last : Outcome Value)

def note (s : String) : Program Unit := Inspection.note (.note s)

/-- Proceeds up to `n` times, until it goes well. -/
def retrying : Nat → Outcome Value → Program (Outcome Value)
  | 0, current => return current
  | n + 1, _ => do
    match ← Program.proceed with
    | .ok v => return .ok v
    | .error f => retrying n (.error f)

/-- Lets a copy of the invocation proceed, and notes how that ends. -/
def proceedCopy (c : Copy) : Program (Outcome Value × Copy) := do
  let r ← Program.fork c
  note ("fork:" ++ renderOutcome Value.render r.1 ++ " " ++ Text.boolean r.2.completed)
  return r

namespace Move

def run (current : Outcome Value) : Move → Program Progress
  | look k => do
    (k.inspect current.toOption : Program Unit)
    return .goOn current
  | fail f => return .stop (.error f)
  | failIf c f => do
    let v ← Inspection.look
    return if c.onCall v.method v.arguments then .stop (.error f) else .goOn current
  | proceed => do
    match ← Program.proceed with
    | .ok v => return .goOn (.ok v)
    | .error f => return .stop (.error f)
  | attempt => do return .goOn (← Program.proceed)
  | retry n => do return .goOn (← retrying n current)
  | give v => return .goOn (.ok v)
  | giveProxy => do return .goOn (.ok (← Inspection.look).proxy)
  | stopIf c => do
    let v ← Inspection.look
    return if c.onCall v.method v.arguments then .stop current else .goOn current
  | recover v => return .goOn (match current with
    | .ok v => .ok v
    | .error _ => .ok v)
  | wrap name => return .goOn (current.map fun v => .text (name ++ "(" ++ v.render ++ ")"))
  | context s => return .goOn (current.mapError fun f => f.withContext s)
  | result => do
    note ("result:" ++ renderOutcome Value.render current)
    return .goOn current
  | setArguments vs => do
    Program.setArguments vs
    return .goOn current
  | setArgument i v => do
    let done ← Program.setArgument i v
    note ("set_arg:" ++ Text.boolean done)
    return .goOn current
  | setAttribute key v => do
    Program.setAttribute key v
    return .goOn current
  | removeAttribute key => do
    let old ← Program.removeAttribute key
    note ("del_attr:" ++ orNone (old.map Value.render))
    return .goOn current
  | fork arguments mark twice => do
    let v ← Inspection.look
    let copy : Copy :=
      { arguments := arguments.getD v.arguments
        attributes := mark.elim v.attributes fun key => v.attributes.put key (.bool true) }
    let r ← proceedCopy copy
    if twice then
      let _ ← proceedCopy r.2
    return .goOn r.1
  | reenter m args => do
    let v ← Inspection.look
    match v.proxy.target? with
    | some t =>
      let outcome ← Inspection.command (.call t m args)
      note ("reenter:" ++ renderOutcome Value.render outcome)
      return .goOn outcome
    | none => return .goOn current

end Move

def around : List Move → Outcome Value → Program (Outcome Value)
  | [], current => return current
  | m :: ms, current => do
    match ← m.run current with
    | .goOn current => around ms current
    | .stop last => return last

/-- Around advice written as moves. -/
def interceptor (name : String) (moves : List Move) : Interceptor := ⟨name, around moves (.ok .unit)⟩

def before (steps : List Step) : Advice := .before (inspectAll none steps)

def afterReturning (steps : List Step) : Advice := .afterReturning fun v => inspectAll (some v) steps

def after (steps : List Step) : Advice := .around (.afterFinally (inspectAll none steps))

/-- What a handler of throws advice does. -/
inductive Remedy
  | rethrow
  | recover (v : Value)
  | replace (f : Failure)

def Remedy.verdict : Remedy → Outcome Verdict
  | rethrow => .ok .rethrow
  | recover v => .ok (.recover v)
  | replace f => .error f

/-- The types of causes that scripts handle, by tag. -/
def handledType? : String → Option String
  | "not_found" => some "NotFound"
  | "disk" => some "Disk"
  | "quota" => some "Quota"
  | "storage" => some "Storage"
  | "aop" => some "chimera_aop::error::AopError"
  | _ => none

/-- Notes what a handler was given, and applies its remedy. -/
def handling (name tag : String) (r : Remedy) (message : String) : Inspection (Outcome Verdict) := do
  Inspection.note (.note ("throws:" ++ name ++ ":" ++ tag ++ ":" ++ message))
  return r.verdict

/-- Throws advice from tags and remedies, registered in order; any other tag is for all failures. -/
def throwsAdvice (name : String) (remedies : List (String × Remedy)) : ThrowsAdvice :=
  remedies.foldl (fun t r =>
    match handledType? r.1 with
    | some type => t.on ⟨type, fun c => handling name r.1 r.2 c.text⟩
    | none => t.otherwise fun f => handling name r.1 r.2 f.message) ⟨name, [], none⟩

end Weaving.Script
