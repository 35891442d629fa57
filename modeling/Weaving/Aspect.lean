import Weaving.Advisor

/-! Aspects: advice declared under one name. Declarations are numbered in order, and an aspect may have
an order for all of them and patterns for the beans it is meant for. -/
namespace Weaving

structure Aspect where
  name : String
  order : Option Int := none
  beanPatterns : List String := []
  declared : List Advisor := []

namespace Aspect

def named (name : String) : Aspect := ⟨name, none, [], []⟩

def restrictBeans (a : Aspect) (patterns : List String) : Aspect :=
  { a with beanPatterns := a.beanPatterns ++ patterns }

/-- Declares an advisor at the next place. -/
def declare (a : Aspect) (role : Advisor.Role) (kind : AdviceKind) : Aspect :=
  { a with declared := a.declared ++ [⟨role, none, some ⟨a.name, a.declared.length, kind⟩⟩] }

def advise (a : Aspect) (p : Pointcut) (advice : Advice) (kind : AdviceKind) : Aspect :=
  a.declare (.pointcut p advice) kind

def introduce (a : Aspect) (i : Introduction) : Aspect := a.declare (.introduction i) .around

def coversBean (a : Aspect) (bean : String) : Bool :=
  a.beanPatterns.isEmpty || Glob.anyAccepts a.beanPatterns bean

/-- The advisors, with the order of the aspect if it has one. -/
def advisors (a : Aspect) : List Advisor :=
  match a.order with
  | some n => a.declared.map fun x => { x with order := some n }
  | none => a.declared

def shown (a : Aspect) : String :=
  Text.record "AspectDefinition" [("name", Text.quote a.name), ("order", Advisor.shownOrder a.order),
    ("bean_patterns", Text.quoteList a.beanPatterns), ("advisors", toString a.advisors.length)]

end Aspect
end Weaving
