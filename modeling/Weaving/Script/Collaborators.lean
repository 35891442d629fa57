import Weaving.World.Creator
import Weaving.Script.Adapters

/-! Beans, target sources, introductions and resolvers written as data. -/
namespace Weaving.Script

/-- What a scripted bean does when a method is called. -/
inductive Behaviour
  | echo
  | self
  | arguments
  | count
  | give (v : Value)
  | argument (index : Nat)
  | fail (f : Failure)
  /-- Fails the first `n` times that the method is called. -/
  | flaky (n : Nat) (f : Failure) (v : Value)
  | sleep (milliseconds : Nat)
  /-- The method is not known to the bean. -/
  | unknown

def Behaviour.outcome (self : Target) (before : List Method) (m : Method) (args : List Value) :
    Behaviour → Outcome Value
  | echo => .ok (args.headD .unit)
  | .self => .ok (.object self)
  | arguments => .ok (.text (Value.renderList args))
  | count => .ok (.int (before.length + 1))
  | give v => .ok v
  | argument i => .ok (args.getD i .unit)
  | fail f => .error f
  | flaky n f v => if (before.filter fun b => b.name = m.name).length < n then .error f else .ok v
  | sleep _ => .ok .unit
  | unknown => .error (.ofMessage ("unknown method " ++ m.text))

/-- A bean that behaves by the name of the method called, and does not know the methods that its list
leaves out. -/
def bean (behaviours : List (String × Behaviour)) : Bean := fun self before m args =>
  let entries := [Entry.note ("real:" ++ self.label ++ "." ++ m.name ++ "(" ++
    Value.renderList args ++ ")")]
  let b := (behaviours.lookup m.name).getD .unknown
  let pause := match b with
    | .sleep ms => ms
    | _ => 0
  ⟨b.outcome self before m args, entries, pause⟩

/-- Makes beans that share their behaviour, numbered from one, and fails at some numbers. -/
def factory (serial : Nat) (id : String) (failAt : List Nat) : Factory := fun k =>
  if k ∈ failAt then ([], .error (.ofMessage ("factory failure #" ++ toString k)))
  else
    let label := id ++ "#" ++ toString k
    ([.note ("create:" ++ label)], .ok (.bean ⟨serial, label⟩))

/-- A source that notes what is asked of it, and may refuse to give or to take back. -/
def reporting (targetClass : Option Class) (target : Target) (isStatic getFails releaseFails : Bool) :
    CustomSource where
  targetClass
  isStatic
  acquire := fun _ =>
    ([.note "acquire"],
      if getFails then .error (.ofMessage "no target today") else .ok (some target))
  release := fun _ _ =>
    ([.note "release"], if releaseFails then .error (.ofMessage "release refused") else .ok ())

/-- An interceptor that introduces interfaces by a delegate. After `valid` questions, if that is given,
it denies implementing any. -/
def introducer (serial : Nat) (delegate : Target) (implements : List String) (valid : Option Nat) :
    Introducer :=
  let inner := Interceptor.delegating delegate implements
  match valid with
  | none => ⟨serial, inner, fun _ i => implements.contains i⟩
  | some n => ⟨serial, ⟨"fickle", inner.body⟩, fun k i => k < n && implements.contains i⟩

/-- Adds an advisor to the configuration the first time, which is counted by a serial number. -/
def meddle (serial : Nat) (a : Advisor) : Edit Unit := do
  if (← get).asked serial = 0 then
    modifyGet fun e => ((), { e with asked := fun n => if n = serial then 1 else e.asked n })
    Advised.addAdvisor a

/-- A resolver that adds an advisor once it has resolved a chain, before the chain is used. -/
def meddler (serial : Nat) (a : Advisor) : Resolver := fun s m c => do
  let resolved ← Advised.resolve s m c
  meddle serial a
  return resolved

/-- The usual resolver, or a meddler with a serial number of its own. -/
def resolver (meddling : Option Advisor) (w : World) : Resolver × World :=
  match meddling with
  | none => (Advised.resolve, w)
  | some a => (meddler w.introductions a, { w with introductions := w.introductions + 1 })

/-- The one aspect that a scripted program submits to registries. -/
def submitted : List Aspect :=
  [(Aspect.advise { Aspect.named "DriverAudit" with order := some 7, beanPatterns := ["audit*"] }
    (.ofExpression .all)
    (.before do
      let v ← Inspection.look
      Inspection.note (.note ("driver-audit:" ++ v.method.name))
      return .ok ())
    .before)]

/-- How proxies are generated: as handles, unless the generator is one that refuses every plan or one
that makes values that are no handles. -/
def generator (name : Option String) (plan : Plan) : Except Fault Generated :=
  match name with
  | some "refuse" => .error (.proxyCreation ("generator refused " ++ plan.describe))
  | some "other" => .ok (.value (.text "other"))
  | _ => .ok .handle

end Weaving.Script
