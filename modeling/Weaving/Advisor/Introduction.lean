import Weaving.Pointcut.ClassFilter
import Weaving.Program

/-! Introductions: interceptors that implement interfaces on behalf of the classes of a filter. An
introduction is valid if its interceptor, when asked, admits to implementing what is introduced. -/
namespace Weaving

/-- How many questions each introduction interceptor has been asked, by its serial number. -/
abbrev Asked := Nat → Nat

/-- An interceptor that implements interfaces. Its answers may depend on how often it has been asked. -/
structure Introducer where
  serial : Nat
  interceptor : Interceptor
  implements : Nat → String → Bool

namespace Introducer

/-- Asks whether an interface is implemented. -/
def ask (x : Introducer) (interface : String) (asked : Asked) : Bool × Asked :=
  (x.implements (asked x.serial) interface,
    fun n => if n = x.serial then asked n + 1 else asked n)

end Introducer

structure Introduction where
  classFilter : ClassFilter := .any
  interfaces : List String
  interceptor : Introducer

namespace Introduction

/-- Asks about interfaces up to the first that is not implemented. -/
def askAll (x : Introducer) : List String → EStateM Fault Asked Unit
  | [] => pure ()
  | i :: is => do
    let r := x.ask i (← get)
    set r.2
    if r.1 then askAll x is
    else throw (.introductionConflict ("interceptor '" ++ x.interceptor.name ++
      "' does not implement introduced interface '" ++ i ++ "'"))

/-- There must be interfaces, and the interceptor must implement them all. -/
def validate (i : Introduction) : EStateM Fault Asked Unit :=
  if i.interfaces.isEmpty then
    throw (.introductionConflict
      ("introduction '" ++ i.interceptor.interceptor.name ++ "' declares no interfaces"))
  else askAll i.interceptor i.interfaces

end Introduction

namespace Interceptor

/-- Hands the methods of some interfaces to a delegate and lets all others proceed. A delegate that
returns itself returns the proxy. -/
def delegating (delegate : Target) (interfaces : List String) : Interceptor where
  name := "DelegatingIntroductionInterceptor"
  body := do
    let view ← Inspection.look
    if interfaces.contains view.method.declaring then
      match ← Inspection.command (.call delegate view.method view.arguments) with
      | .ok v => return .ok (if v.isObject delegate then view.proxy else v)
      | .error f => return .error f
    else Program.proceed

end Interceptor

end Weaving
