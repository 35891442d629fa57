import Weaving.Text.Shown

/-! Values that calls take and return, and the objects among them. An object is known by a serial
number and a label; values hold objects by reference, so that two values are the same object exactly
when they are equal. -/
namespace Weaving

structure ObjectRef where
  serial : Nat
  label : String
  deriving DecidableEq, Repr, Inhabited

/-- What can be called: a bean, or a proxy handle. -/
inductive Target
  | bean (object : ObjectRef)
  | handle (object : ObjectRef)
  deriving DecidableEq, Repr, Inhabited

inductive Value
  | unit
  | bool (b : Bool)
  | int (i : Int)
  | text (s : String)
  | object (t : Target)
  deriving DecidableEq, Repr, Inhabited

namespace Target

def label : Target → String
  | bean o | handle o => o.label

end Target

namespace Value

def typeName : Value → String
  | unit => "()"
  | bool _ => "bool"
  | int _ => "i64"
  | text _ => "alloc::string::String"
  | object (.bean _) => "Bean"
  | object (.handle _) => "chimera_aop::proxy::ProxyHandle"

/-- The written form, which shows the type only. -/
def shown (v : Value) : String := "Value(" ++ v.typeName ++ ")"

def shownList (vs : List Value) : String := Text.list (vs.map shown)

/-- The value as events show it. -/
def render : Value → String
  | unit => "()"
  | bool b => Text.boolean b
  | int i => toString i
  | text s => s
  | object (.bean o) => "<bean " ++ o.label ++ ">"
  | object (.handle o) => "<proxy " ++ o.label ++ ">"

def renderList (vs : List Value) : String := Text.sequence (vs.map render)

def isUnit (v : Value) : Bool := v = unit

def int? : Value → Option Int
  | int i => some i
  | _ => none

def text? : Value → Option String
  | text s => some s
  | _ => none

def target? : Value → Option Target
  | object t => some t
  | _ => none

/-- Whether a value is the given object. -/
def isObject (v : Value) (t : Target) : Bool := v = object t

@[simp] theorem isObject_object (t u : Target) : (object t).isObject u = true ↔ t = u := by
  simp [isObject]

end Value
end Weaving
