import Weaving.Failure
import Weaving.Journal
import Weaving.Value

/-! A pool of targets. A target is lent to one holder at a time and comes back to the top of the idle
ones; new targets are made as long as there are fewer than the largest number allowed. -/
namespace Weaving

/-- Makes targets: what the n-th attempt journals and gives. -/
abbrev Factory := Nat → List Entry × Outcome Target

/-- A pool and its counters. These are natural numbers, where counters of a fixed width would start again
once they overflow, which takes more targets or more calls than a program can have. -/
structure Pool where
  maxSize : Nat
  /-- Targets that nobody holds, the one returned last first. -/
  idle : List Target := []
  created : Nat := 0
  active : Nat := 0
  acquired : Nat := 0
  released : Nat := 0
  /-- How often the factory has been asked. -/
  attempts : Nat := 0
  deriving DecidableEq, Repr

namespace Pool

/-- An empty pool, of at least one target. -/
def ofSize (n : Nat) : Pool := ⟨max 1 n, [], 0, 0, 0, 0, 0⟩

/-- Records that a target has been lent. -/
def lend (p : Pool) : Pool := { p with active := p.active + 1, acquired := p.acquired + 1 }

def acquire (className : String) (factory : Factory) (p : Pool) :
    (List Entry × Outcome Target) × Pool :=
  match p.idle with
  | t :: idle => (([], .ok t), { p with idle := idle }.lend)
  | [] =>
    if p.created ≥ p.maxSize then
      (([], .error (.ofMessage ("Target pool for " ++ className ++ " exhausted (max size " ++
        toString p.maxSize ++ ")"))), p)
    else
      let made := factory (p.attempts + 1)
      let p := { p with attempts := p.attempts + 1 }
      match made.2 with
      | .ok t => ((made.1, .ok t), { p with created := p.created + 1 }.lend)
      | .error f => ((made.1, .error f), p)

def release (p : Pool) (t : Target) : Pool :=
  { p with idle := t :: p.idle, active := p.active - 1, released := p.released + 1 }

end Pool
end Weaving
