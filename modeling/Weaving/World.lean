import Weaving.Proxy.Lookup
import Weaving.Proxy.Plan
import Weaving.Aspect.Registry
import Weaving.Source

/-! The world that calls are made in: beans with what has been called on them, target sources,
configurations, proxy handles, the aspect registry and a clock. -/
namespace Weaving

/-- How a bean answers a call. -/
structure Answer where
  outcome : Outcome Value
  entries : List Entry := []
  /-- How long the answer takes, in milliseconds. -/
  pause : Nat := 0

/-- What a bean does: its answers may depend on the methods called on it before, the latest first. -/
abbrev Bean := Target → List Method → Method → List Value → Answer

/-- A configuration, the source of its targets, and what resolves its chains. -/
structure Configuration where
  advised : Advised
  source : Nat
  resolver : Resolver := Advised.resolve

/-- Where candidate advisors come from: the registry, or a list that never changes. -/
inductive Feed
  | registry
  | fixed (as : List Advisor)

/-- What a proxy follows: the advisors for one bean, up to the version seen last. -/
structure Following where
  feed : Feed
  bean : String
  beanClass : Class
  seen : Nat

structure Handle where
  plan : Plan
  configuration : Nat
  following : Option Following := none

structure World where
  beans : List Bean := []
  called : ObjectRef → List Method := fun _ => []
  sources : List Source := []
  configurations : List Configuration := []
  handles : List Handle := []
  registry : Registry := {}
  /-- The aspects and advisors that commands can register. -/
  aspects : List Aspect := []
  advisors : List Advisor := []
  asked : Asked := fun _ => 0
  /-- How many serial numbers there are, of introduction interceptors or of others who count what they are
  asked. -/
  introductions : Nat := 0
  clock : Nat := 0

/-- The world while something is done in it, and the journal. -/
structure Scene where
  world : World
  journal : List Entry := []

abbrev Deed := EStateM Abort Scene

namespace Deed

def world : Deed World := do return (← get).world

def modifyWorld (f : World → World) : Deed Unit := modify fun s => { s with world := f s.world }

def journal (es : List Entry) : Deed Unit := modify fun s => { s with journal := s.journal ++ es }

/-- Does one thing after another, also when the first is aborted. -/
def ensuring {α : Type} (first : Deed α) (last : Deed Unit) : Deed α := fun s =>
  match first s with
  | .ok a s => match last s with
    | .ok () s => .ok a s
    | .error e s => .error e s
  | .error e s => match last s with
    | .ok () s => .error e s
    | .error e s => .error e s

end Deed

namespace World

/-- Adds a bean, and gives the object it becomes under a label. -/
def addBean (w : World) (b : Bean) (label : String) : ObjectRef × World :=
  (⟨w.beans.length, label⟩, { w with beans := w.beans ++ [b] })

def addSource (w : World) (s : Source) : Nat × World :=
  (w.sources.length, { w with sources := w.sources ++ [s] })

def addConfiguration (w : World) (c : Configuration) : Nat × World :=
  (w.configurations.length, { w with configurations := w.configurations ++ [c] })

def addHandle (w : World) (h : Handle) (label : String) : ObjectRef × World :=
  (⟨w.handles.length, label⟩, { w with handles := w.handles ++ [h] })

def setSource (w : World) (n : Nat) (s : Source) : World := { w with sources := w.sources.set n s }

def source (w : World) (n : Nat) : Source := w.sources.getD n (.empty none)

/-- The source of a configuration. -/
def sourceOf (w : World) (c : Configuration) : Source := w.source c.source

def candidates (w : World) (f : Feed) (bean : String) : List Advisor :=
  match f with
  | .registry => w.registry.candidates bean
  | .fixed as => as

def version (w : World) : Feed → Nat
  | .registry => w.registry.version
  | .fixed _ => 0

/-- The sorted advisors that can apply to a bean of a class. -/
def eligible (w : World) (f : Feed) (bean : String) (c : Class) : Sorted Advisor :=
  Advisor.sort (Advisor.eligible (w.candidates f bean) c)

end World
end Weaving
