import Weaving.Program

/-! Advice in its closed set of shapes: before, after returning, throws and around, and custom advice
that only an adapter of its own can use. Throws advice chooses among handlers by the type of the
causes of a failure. -/
namespace Weaving

inductive AdviceKind
  | before
  | after
  | afterReturning
  | afterThrowing
  | around
  deriving DecidableEq, Repr

namespace AdviceKind

def isAfter : AdviceKind → Bool
  | after | afterReturning | afterThrowing => true
  | before | around => false

def name : AdviceKind → String
  | before => "Before"
  | after => "After"
  | afterReturning => "AfterReturning"
  | afterThrowing => "AfterThrowing"
  | around => "Around"

def all : List AdviceKind := [before, after, afterReturning, afterThrowing, around]

def ofName? (s : String) : Option AdviceKind := all.find? fun k => k.name = s

end AdviceKind

/-- What a handler makes of a failure that it does not replace by another. -/
inductive Verdict
  | rethrow
  | recover (v : Value)
  deriving DecidableEq, Repr

/-- A handler for causes of one type. -/
structure Handler where
  type : String
  react : Cause → Inspection (Outcome Verdict)

structure ThrowsAdvice where
  name : String
  handlers : List Handler := []
  fallback : Option (Failure → Inspection (Outcome Verdict)) := none

namespace ThrowsAdvice

/-- Adds a handler in place of any other for its type. -/
def on (t : ThrowsAdvice) (h : Handler) : ThrowsAdvice :=
  { t with handlers := t.handlers.filter (fun g => g.type ≠ h.type) ++ [h] }

/-- Sets the handler for failures that no other handles. -/
def otherwise (t : ThrowsAdvice) (react : Failure → Inspection (Outcome Verdict)) : ThrowsAdvice :=
  { t with fallback := some react }

def size (t : ThrowsAdvice) : Nat := t.handlers.length + if t.fallback.isSome then 1 else 0

/-- The reaction of the first handler for a cause. -/
def reaction? (t : ThrowsAdvice) (c : Cause) : Option (Inspection (Outcome Verdict)) :=
  (t.handlers.find? fun h => c.type? = some h.type).map fun h => h.react c

/-- The reaction to a failure: that to its outermost cause with a handler, else the fallback's. -/
def handle (t : ThrowsAdvice) (f : Failure) : Option (Inspection (Outcome Verdict)) :=
  match f.chain.findSome? t.reaction? with
  | some r => some r
  | none => t.fallback.map fun react => react f

def shown (t : ThrowsAdvice) : String :=
  Text.record "ThrowsAdvice" [("name", Text.quote t.name),
    ("handlers", Text.quoteList (t.handlers.map (·.type))),
    ("has_fallback", Text.boolean t.fallback.isSome)]

end ThrowsAdvice

inductive Payload
  | number (n : Nat)
  | text (s : String)
  deriving DecidableEq, Repr

inductive Advice
  | before (body : Inspection (Outcome Unit))
  | afterReturning (body : Value → Inspection (Outcome Unit))
  | throws (t : ThrowsAdvice)
  | around (i : Interceptor)
  | custom (name : String) (payload : Payload)

namespace Advice

def kind : Advice → AdviceKind
  | before _ => .before
  | afterReturning _ => .afterReturning
  | throws _ => .afterThrowing
  | around _ | custom _ _ => .around

def describe : Advice → String
  | before _ => "before advice"
  | afterReturning _ => "after-returning advice"
  | throws t => "throws advice '" ++ t.name ++ "'"
  | around i => "interceptor '" ++ i.name ++ "'"
  | custom n _ => "custom advice '" ++ n ++ "'"

def shown (a : Advice) : String := "Advice(" ++ a.describe ++ ")"

end Advice

namespace Interceptor

/-- Runs before advice, and proceeds unless it fails. -/
def before (body : Inspection (Outcome Unit)) : Interceptor where
  name := "chimera_aop::adapter::MethodBeforeAdviceInterceptor"
  body := do
    match ← (body : Program (Outcome Unit)) with
    | .ok () => Program.proceed
    | .error f => return .error f

/-- Proceeds, and runs after-returning advice on the value; advice that fails replaces it. -/
def afterReturning (body : Value → Inspection (Outcome Unit)) : Interceptor where
  name := "chimera_aop::adapter::AfterReturningAdviceInterceptor"
  body := do
    match ← Program.proceed with
    | .error f => return .error f
    | .ok v => match ← (body v : Program (Outcome Unit)) with
      | .ok () => return .ok v
      | .error f => return .error f

/-- Proceeds, and hands a failure to throws advice, which may replace it by a value or another
failure. -/
def throws (t : ThrowsAdvice) : Interceptor where
  name := t.name
  body := do
    match ← Program.proceed with
    | .ok v => return .ok v
    | .error f => match t.handle f with
      | none => return .error f
      | some react => match ← (react : Program (Outcome Verdict)) with
        | .ok .rethrow => return .error f
        | .ok (.recover v) => return .ok v
        | .error g => return .error g

/-- Proceeds, and runs advice however that ends; advice that fails replaces the outcome. -/
def afterFinally (body : Inspection (Outcome Unit)) : Interceptor where
  name := "chimera_aop::interceptor::AfterFinallyInterceptor"
  body := do
    let outcome ← Program.proceed
    match ← (body : Program (Outcome Unit)) with
    | .ok () => return outcome
    | .error f => return .error f

end Interceptor
end Weaving
