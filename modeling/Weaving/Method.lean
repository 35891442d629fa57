/-! Methods: the type that declares them, their name and the types of their parameters. -/
namespace Weaving

structure Method where
  declaring : String
  name : String
  params : List String
  deriving DecidableEq, Repr, Inhabited

namespace Method

/-- The written form, such as a message shows it. -/
def text (m : Method) : String :=
  m.declaring ++ "::" ++ m.name ++ "(" ++ ", ".intercalate m.params ++ ")"

def qualifiedName (m : Method) : String := m.declaring ++ "." ++ m.name

/-- Two methods of one shape override each other, whatever types declare them. -/
def overrides (m n : Method) : Bool := m.name = n.name && m.params = n.params

end Method
end Weaving
