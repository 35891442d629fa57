import Weaving.Advisor.Adapter
import Weaving.Script.Action

/-! Adapters that scripts can register by name, beside the built-in ones. -/
namespace Weaving.Script

/-- Proceeds up to `n` times until it goes well, and fails as it failed last. -/
def retryInterceptor (n : Nat) : Interceptor :=
  ⟨"retry", retrying n (.error (.ofMessage "no attempts"))⟩

/-- Leaves a note and proceeds. -/
def noting (name text : String) : Interceptor where
  name := name
  body := do
    note text
    Program.proceed

def unsupported (a : Advice) : Except Fault Interceptor := .error (.unknownAdviceType a.describe)

def adapter : String → Adapter
  | "retry" =>
    { supports := fun
        | .custom _ (.number _) => true
        | _ => false
      adapt := fun
        | .custom _ (.number n) => .ok (retryInterceptor n)
        | a => unsupported a }
  | "note" =>
    { supports := fun
        | .custom _ (.text _) => true
        | _ => false
      adapt := fun
        | .custom _ (.text s) => .ok (noting "note" ("note:" ++ s))
        | a => unsupported a }
  | "broken" =>
    { supports := fun
        | .custom "broken" _ => true
        | _ => false
      adapt := fun a => .error (.unknownAdviceType ("broken adapter for " ++ a.describe)) }
  | "before_too" =>
    { supports := fun
        | .before _ => true
        | _ => false
      adapt := fun _ => .ok (noting "before_too" "before_too") }
  | "around_too" =>
    { supports := fun
        | .around _ => true
        | _ => false
      adapt := fun _ => .ok (noting "around_too" "around_too") }
  | "builtin_before" => .before
  | "builtin_after_returning" => .afterReturning
  | "builtin_throws" => .throws
  | _ => { supports := fun _ => false, adapt := unsupported }

end Weaving.Script
