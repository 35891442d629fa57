import Weaving.Failure

/-! The errors that scripts know: a few types of their own, faults and plain messages, with contexts. -/
namespace Weaving.Script

def notFound (n : Int) : Cause :=
  .typed "NotFound" ("user " ++ toString n ++ " not found") ("NotFound(" ++ toString n ++ ")")

def disk : Cause := .typed "Disk" "disk unavailable" "Disk"

def quota : Cause := .typed "Quota" "quota exceeded" "Quota"

/-- A storage error, caused by another. -/
def storage (inner : Failure) : Failure := ⟨.typed "Storage" "storage failed" "Storage", inner.chain⟩

/-- Adds contexts, the last one outermost. -/
def withContexts (f : Failure) (contexts : List String) : Failure :=
  contexts.foldl Failure.withContext f

/-- How the outcome of a call is shown in events. -/
def renderOutcome {α : Type} (render : α → String) : Outcome α → String
  | .ok v => "ok " ++ render v
  | .error f => "err " ++ f.message

end Weaving.Script
