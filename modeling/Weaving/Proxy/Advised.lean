import Weaving.Chain
import Weaving.Distinct
import Weaving.Proxy.Settings

/-! The configuration of a proxy: its settings, the interfaces it exposes, its advisors and the chains
resolved so far. Each change of the advisors starts a new generation and discards the chains; a frozen
configuration refuses changes. -/
namespace Weaving

/-- What a chain is kept under: the name of the target class, if it is known, and the method. -/
structure ChainKey where
  className : Option String
  method : Method
  deriving DecidableEq, Repr

structure Advised where
  config : ProxySettings := {}
  interfaces : List String := []
  advisors : List Advisor := []
  /-- How often the advisors have changed. Here it grows without bound, where a counter of 64 bits would start
  again after 2 ^ 64 changes, which no program reaches. -/
  generation : Nat := 0
  cache : List (ChainKey × Chain) := []
  adapters : Adapters := .builtIn

/-- A configuration while it is changed, the questions asked of introductions and the journal. -/
structure Editing where
  advised : Advised
  asked : Asked
  journal : List Entry := []

abbrev Edit := EStateM Fault Editing

namespace Advised

def modify (f : Advised → Advised) : Edit Unit :=
  modifyGet fun s => ((), { s with advised := f s.advised })

/-- Discards the chains and starts a new generation. -/
def invalidate (a : Advised) : Advised := { a with generation := a.generation + 1, cache := [] }

def freeze (a : Advised) (frozen : Bool) : Advised :=
  { a with config := { a.config with frozen } }

def addInterfaces (a : Advised) (is : List String) : Advised :=
  { a with interfaces := addAll a.interfaces is }

def setAdvisors (a : Advised) (as : List Advisor) : Advised := { a with advisors := as }.invalidate

def ensureThawed (action : String) : Edit Unit := do
  if (← get).advised.config.frozen then throw (.configFrozen ("cannot " ++ action))

/-- Validates an introduction; any other advisor needs no validation. -/
def validate (a : Advisor) : Edit Unit :=
  match a.introduction? with
  | none => pure ()
  | some i => fun s => match i.validate s.asked with
    | .ok () asked => .ok () { s with asked }
    | .error f asked => .error f { s with asked }

/-- The interfaces that an advisor introduces. -/
def introduced (a : Advisor) : List String := a.introduction?.elim [] (·.interfaces)

def addAdvisor (a : Advisor) : Edit Unit := do
  ensureThawed "add advisor"
  validate a
  modify fun d => d.addInterfaces (introduced a)
  modify fun d => d.setAdvisors (d.advisors ++ [a])

def addAdvisors : List Advisor → Edit Unit
  | [] => pure ()
  | a :: as => do
    addAdvisor a
    addAdvisors as

/-- Adds advice of any shape. Advice that no adapter supports is refused before all else. -/
def addAdvice (raw : Advisable) : Edit Unit := do
  match raw.toAdvisor (← get).advised.adapters with
  | .ok a => addAdvisor a
  | .error f => throw f

def removeAdvisor (n : Nat) : Edit Advisor := do
  ensureThawed "remove advisor"
  let as := (← get).advised.advisors
  match as[n]? with
  | some a =>
    modify fun d => d.setAdvisors (as.eraseIdx n)
    return a
  | none => throw (.config ("advisor index " ++ toString n ++ " out of range (" ++
      toString as.length ++ " advisors)"))

def validateAll : List Advisor → Edit Unit
  | [] => pure ()
  | a :: as => do
    validate a
    validateAll as

/-- Replaces all advisors by a list, which is taken as it is. -/
def replaceAdvisors (as : List Advisor) : Edit Unit := do
  ensureThawed "replace advisors"
  validateAll as
  modify fun d => d.addInterfaces (as.flatMap introduced)
  modify fun d => d.setAdvisors as

/-- The written form of a configuration for a target class. -/
def shown (a : Advised) (c : Option Class) : String :=
  Text.record "AdvisedSupport" [("config", a.config.shown),
    ("target_class", Text.quoteOption (c.map Class.name)),
    ("interfaces", Text.quoteList a.interfaces),
    ("advisors", Text.list (a.advisors.map Advisor.shown)),
    ("cached_chains", toString a.cache.length)]

end Advised
end Weaving
