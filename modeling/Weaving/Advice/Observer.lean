import Weaving.Advice

/-! Observers: advice that watches calls and writes to the log, and changes nothing else. -/
namespace Weaving

namespace Interceptor

/-- Logs that a call begins, with the types of its arguments on demand, and how it ends. -/
def tracing (withArguments : Bool) : Interceptor where
  name := "TracingInterceptor"
  body := do
    let view ← Inspection.look
    Inspection.note (.info ("→ Entering: " ++ view.method.text ++
      if withArguments then " with " ++ Value.shownList view.arguments else ""))
    let outcome ← Program.proceed
    Inspection.note (.info ("← Exiting: " ++ view.method.text ++
      match outcome with
      | .ok _ => ""
      | .error f => " with error '" ++ f.message ++ "'"))
    return outcome

/-- Warns of calls that take longer than a threshold in milliseconds. The clock counts whole
milliseconds, so a call that the clock sees take as long as the threshold has taken longer. -/
def performance (threshold : Nat) : Interceptor where
  name := "PerformanceMonitorInterceptor"
  body := do
    let start ← Program.clock
    let outcome ← Program.proceed
    let stop ← Program.clock
    if threshold ≤ stop - start then
      let view ← Inspection.look
      Inspection.note (.warn ("Slow method detected: " ++ view.method.text ++
        " (threshold: " ++ toString threshold ++ "ms)"))
    return outcome

end Interceptor

/-- Logs every failure with its causes and lets it pass. -/
def ThrowsAdvice.exceptionLogging : ThrowsAdvice :=
  ThrowsAdvice.otherwise ⟨"ExceptionLogging", [], none⟩ fun f => do
    let view ← Inspection.look
    let s := f.summary
    Inspection.note (.error ("Exception in " ++ view.method.text ++ " [" ++ s.type ++ "]: " ++ s.text ++
      " (root cause: " ++ s.root ++ ")"))
    return .ok .rethrow

end Weaving
