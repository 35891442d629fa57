import Weaving.Class
import Weaving.Source.Pool
import Weaving.Text.Shown

/-! Target sources: where a proxy takes the target of each call from and where it gives it back. A
source is static if it gives the same target every time. -/
namespace Weaving

/-- A source that is given by what the n-th acquisition and the n-th release do. -/
structure CustomSource where
  targetClass : Option Class
  isStatic : Bool
  acquire : Nat → List Entry × Outcome (Option Target)
  release : Nat → Target → List Entry × Outcome Unit

inductive Source
  | singleton (target : Target) (targetClass : Option Class)
  | empty (targetClass : Option Class)
  | prototype (targetClass : Class) (factory : Factory) (attempts : Nat)
  | swappable (targetClass : Class) (target : Target)
  | lazy (targetClass : Class) (factory : Factory) (attempts : Nat) (target : Option Target)
  | pool (targetClass : Class) (factory : Factory) (p : Pool)
  | custom (s : CustomSource) (acquired released : Nat)

namespace Source

def targetClass : Source → Option Class
  | singleton _ c | empty c => c
  | prototype c _ _ | swappable c _ | lazy c _ _ _ | pool c _ _ => some c
  | custom s _ _ => s.targetClass

def isStatic : Source → Bool
  | singleton _ _ | empty _ | lazy _ _ _ _ => true
  | prototype _ _ _ | swappable _ _ | pool _ _ _ => false
  | custom s _ _ => s.isStatic

/-- Takes the target for one call: what is journalled, the target if there is one, and the source
afterwards. -/
def acquire : Source → (List Entry × Outcome (Option Target)) × Source
  | singleton t c => (([], .ok (some t)), singleton t c)
  | empty c => (([], .ok none), empty c)
  | prototype c factory n =>
    let made := factory (n + 1)
    ((made.1, made.2.map some), prototype c factory (n + 1))
  | swappable c t => (([], .ok (some t)), swappable c t)
  | lazy c factory n (some t) => (([], .ok (some t)), lazy c factory n (some t))
  | lazy c factory n none =>
    let made := factory (n + 1)
    ((made.1, made.2.map some), lazy c factory (n + 1) made.2.toOption)
  | pool c factory p =>
    let r := p.acquire c.name factory
    ((r.1.1, r.1.2.map some), pool c factory r.2)
  | custom s a r => (s.acquire (a + 1), custom s (a + 1) r)

/-- Gives a target back. -/
def release (t : Target) : Source → (List Entry × Outcome Unit) × Source
  | pool c factory p => (([], .ok ()), pool c factory (p.release t))
  | custom s a r => (s.release (r + 1) t, custom s a (r + 1))
  | s => (([], .ok ()), s)

/-- Gives a target back; a failure to do so is only logged. -/
def dispose (t : Target) (s : Source) : List Entry × Source :=
  let r := s.release t
  match r.1.2 with
  | .ok () => (r.1.1, r.2)
  | .error f => (r.1.1 ++ [.error ("Failed to release target: " ++ f.message)], r.2)

/-- Replaces the target of a swappable source, and gives the old one. -/
def swap (t : Target) : Source → Option Target × Source
  | swappable c old => (some old, swappable c t)
  | s => (none, s)

/-- The target of a singleton source. -/
def single? : Source → Option Target
  | singleton t _ => some t
  | _ => none

def isInitialized : Source → Bool
  | lazy _ _ _ t => t.isSome
  | _ => false

def pool? : Source → Option Pool
  | pool _ _ p => some p
  | _ => none

/-- The written form of a singleton source. -/
def shown (s : Source) : String :=
  Text.record "SingletonTargetSource"
    [("target_class", Text.quoteOption (s.targetClass.map Class.name))]

end Source
end Weaving
