import Weaving.Failure
import Weaving.Pointcut.ClassFilter

/-! Method matchers. A matcher decides on a method and a class; if it is a runtime matcher it decides
again on the arguments of each call. An introduction-aware matcher has a decision of its own that
knows whether the class has introductions. -/
namespace Weaving

/-- Tests on a method's name, qualified by its declaring type or by the class it is called on: some
pattern must accept, and no excluded one. -/
structure NameTests where
  patterns : List (String → Bool)
  excluded : List (String → Bool) := []

namespace NameTests

def acceptsName (t : NameTests) (name : String) : Bool :=
  (t.patterns.any fun p => p name) && !t.excluded.any fun p => p name

def accepts (t : NameTests) (m : Method) (c : Option Class) : Bool :=
  t.acceptsName m.qualifiedName ||
    c.any fun c => c.name ≠ m.declaring && t.acceptsName (c.name ++ "." ++ m.name)

end NameTests

/-- A matcher that is given by its answers. Without `acceptsArgs` it cannot be asked about arguments. -/
structure CustomMatcher where
  accepts : Method → Option Class → Bool
  isRuntime : Bool := false
  acceptsArgs : Option (Method → Option Class → List Value → Bool) := none
  aware : Option (Method → Option Class → Bool → Bool) := none

inductive MethodMatcher
  | any
  | names (patterns : List String)
  | tests (t : NameTests)
  | arguments (static : MethodMatcher) (test : Method → List Value → Bool)
  | expression (e : Expression)
  | custom (m : CustomMatcher)
  | union (a b : MethodMatcher)
  | intersection (a b : MethodMatcher)
  /-- A matcher that counts only for the classes of a filter. -/
  | within (filter : ClassFilter) (m : MethodMatcher)

namespace MethodMatcher

instance : Inhabited MethodMatcher := ⟨any⟩

/-- The class to decide on: the one given, or else the declaring type. -/
def classOf (m : Method) (c : Option Class) : Class := c.getD (.named m.declaring)

def accepts (m : Method) (c : Option Class) : MethodMatcher → Bool
  | any => true
  | names ps => Glob.anyAccepts ps m.name
  | tests t => t.accepts m c
  | arguments s _ => s.accepts m c
  | expression e => e.accepts m c
  | custom x => x.accepts m c
  | union a b => a.accepts m c || b.accepts m c
  | intersection a b => a.accepts m c && b.accepts m c
  | within f x => f.accepts (classOf m c) && x.accepts m c

def isRuntime : MethodMatcher → Bool
  | any | names _ | tests _ => false
  | arguments _ _ => true
  | expression e => e.isRuntime
  | custom x => x.isRuntime
  | union a b | intersection a b => a.isRuntime || b.isRuntime
  | within _ x => x.isRuntime

/-- Whether the matcher has a decision of its own that knows of introductions. -/
def isAware : MethodMatcher → Bool
  | union _ _ | intersection _ _ | within _ _ => true
  | custom x => x.aware.isSome
  | _ => false

/-- The decision on a method and a class, where it is known whether the class has introductions. -/
def acceptsStatic (m : Method) (c : Option Class) (introductions : Bool) : MethodMatcher → Bool
  | union a b => a.acceptsStatic m c introductions || b.acceptsStatic m c introductions
  | intersection a b => a.acceptsStatic m c introductions && b.acceptsStatic m c introductions
  | within f x => f.accepts (classOf m c) && x.acceptsStatic m c introductions
  | custom x => match x.aware with
    | some aware => aware m c introductions
    | none => x.accepts m c
  | x => x.accepts m c

/-- The decision on the arguments of a call. A static matcher that decides on its own has none. -/
def acceptsArgs (m : Method) (c : Option Class) (args : List Value) : MethodMatcher → Except Abort Bool
  | any | names _ | tests _ => .error (.staticMatcher m)
  | arguments _ test => .ok (test m args)
  | expression e => .ok (e.acceptsArgs m c args)
  | custom x => match x.acceptsArgs with
    | some decide => .ok (decide m c args)
    | none => .error (.staticMatcher m)
  | union a b => do
    if a.accepts m c then
      if a.isRuntime then
        if ← a.acceptsArgs m c args then return true
      else return true
    if b.accepts m c then
      if b.isRuntime then b.acceptsArgs m c args else return true
    else return false
  | intersection a b => do
    let left ← if a.isRuntime then a.acceptsArgs m c args else pure true
    let right ← if b.isRuntime then b.acceptsArgs m c args else pure true
    return left && right
  | within _ x => x.acceptsArgs m c args

/-- A static matcher that accepts only methods of classes with introductions, and those only in its
aware decision. -/
def whenIntroduced (x : MethodMatcher) : MethodMatcher :=
  custom
    { accepts := fun _ _ => false
      aware := some fun m c introductions => introductions && x.acceptsStatic m c introductions }

end MethodMatcher
end Weaving
