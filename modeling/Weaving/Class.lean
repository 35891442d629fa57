import Weaving.Distinct
import Weaving.Method

/-! Classes. A class is its own declaration together with those of its superclasses, nearest first;
every question about the hierarchy is asked of that lineage. -/
namespace Weaving

/-- What one class declares by itself. -/
structure Declaration where
  name : String
  interfaces : List String := []
  methods : List Method := []
  isInterface : Bool := false
  isFinal : Bool := false
  isProxy : Bool := false
  deriving DecidableEq, Repr, Inhabited

/-- Whether a declaration gives its class a type of this name. -/
def Declaration.provides (d : Declaration) (type : String) : Bool :=
  d.name = type || d.interfaces.contains type

structure Class where
  own : Declaration
  ancestors : List Declaration := []
  deriving DecidableEq, Repr, Inhabited

namespace Class

/-- The class of which nothing but its name is known. -/
def named (name : String) : Class := ⟨⟨name, [], [], false, false, false⟩, []⟩

def name (c : Class) : String := c.own.name

def interfaces (c : Class) : List String := c.own.interfaces

def methods (c : Class) : List Method := c.own.methods

def isInterface (c : Class) : Bool := c.own.isInterface

def isFinal (c : Class) : Bool := c.own.isFinal

def isProxy (c : Class) : Bool := c.own.isProxy

/-- The class and its superclasses, from the class itself upwards. -/
def lineage (c : Class) : List Declaration := c.own :: c.ancestors

def superclass (c : Class) : Option Class :=
  match c.ancestors with
  | [] => none
  | d :: ds => some ⟨d, ds⟩

def extending (d : Declaration) (parent : Class) : Class := ⟨d, parent.lineage⟩

@[simp] theorem name_named (n : String) : (named n).name = n := rfl

/-- The interfaces of the class and its superclasses, each once. -/
def allInterfaces (c : Class) : List String := distinct (c.lineage.flatMap (·.interfaces))

/-- Adds a method unless one of its shape is there. -/
def addMethod (ms : List Method) (m : Method) : List Method :=
  if ms.any fun n => n.overrides m then ms else ms ++ [m]

/-- The methods of the class and its superclasses; of one shape the first declaration wins. -/
def allMethods (c : Class) : List Method := (c.lineage.flatMap (·.methods)).foldl addMethod []

/-- Classes are told apart by their names alone. -/
def sameName (c d : Class) : Bool := c.name = d.name

def provides (c : Class) (type : String) : Bool := c.lineage.any fun d => d.provides type

end Class
end Weaving
