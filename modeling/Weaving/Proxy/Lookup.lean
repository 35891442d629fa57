import Weaving.Proxy.Advised

/-! Looking up the chain of a method. A chain that is kept is used again; otherwise one is resolved for
a snapshot of the advisors, and kept only if it does not depend on arguments, the target source is
static and the advisors have not changed since the snapshot. A chain kept meanwhile wins. What resolves
the chain is a parameter, and may itself change the configuration. -/
namespace Weaving

/-- The advisors at one moment. -/
structure Snapshot where
  advisors : List Advisor
  generation : Nat

/-- Resolves the chain of a method of a class for a snapshot, while it may edit the configuration. -/
abbrev Resolver := Snapshot → Method → Option Class → Edit Resolution

namespace Advised

def keyFor (m : Method) (c : Option Class) : ChainKey := ⟨c.map Class.name, m⟩

def cached? (a : Advised) (k : ChainKey) : Option Chain := a.cache.lookup k

def snapshot (a : Advised) : Snapshot := ⟨a.advisors, a.generation⟩

/-- Keeps a chain that was resolved for a snapshot if that is allowed, and gives the chain to use. -/
def publish (a : Advised) (isStatic : Bool) (s : Snapshot) (k : ChainKey) (r : Resolution) :
    Chain × Advised :=
  if r.cacheable && isStatic && a.generation = s.generation then
    match a.cached? k with
    | some c => (c, a)
    | none => (r.chain, { a with cache := (k, r.chain) :: a.cache })
  else (r.chain, a)

/-- Resolves the chain for a snapshot with the adapters of the configuration, leaving the warnings of its
sorting in the journal. This is the usual resolver. -/
def resolve : Resolver := fun s m c => do
  let r := Chain.resolve (← get).advised.adapters s.advisors m c
  modifyGet fun e => ((), { e with journal := e.journal ++ r.2 })
  match r.1 with
  | .ok resolved => return resolved
  | .error f => throw f

/-- The chain that a resolver gives for a method of a class, from a source that is static or not. -/
def chainBy (resolver : Resolver) (isStatic : Bool) (m : Method) (c : Option Class) : Edit Chain := do
  let a := (← get).advised
  match a.cached? (keyFor m c) with
  | some chain => return chain
  | none =>
    let resolved ← resolver a.snapshot m c
    let r := (← get).advised.publish isStatic a.snapshot (keyFor m c) resolved
    modify fun _ => r.2
    return r.1

/-- The chain that the usual resolver gives. -/
def chainFor (isStatic : Bool) (m : Method) (c : Option Class) : Edit Chain := chainBy resolve isStatic m c

/-- Whether two lookups in a row give one and the same chain: the second gives the chain that the first
left in the cache, if it left one. -/
def sharesChain (resolver : Resolver) (isStatic : Bool) (m : Method) (c : Option Class) : Edit Bool := do
  let _ ← chainBy resolver isStatic m c
  let kept := (← get).advised.cached? (keyFor m c)
  let _ ← chainBy resolver isStatic m c
  return kept.isSome

end Advised
end Weaving
