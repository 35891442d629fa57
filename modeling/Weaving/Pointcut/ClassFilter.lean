import Weaving.Expression

/-! Class filters: trees of conditions on a class. -/
namespace Weaving

inductive ClassFilter
  | any
  | name (pattern : String)
  | root (type : String)
  | expression (e : Expression)
  | custom (test : Class → Bool)
  | union (a b : ClassFilter)
  | intersection (a b : ClassFilter)
  | negate (a : ClassFilter)
  deriving Inhabited

namespace ClassFilter

def accepts (c : Class) : ClassFilter → Bool
  | any => true
  | name p => Glob.accepts p c.name
  | root t => c.provides t
  | expression e => e.couldAccept c
  | custom test => test c
  | union a b => a.accepts c || b.accepts c
  | intersection a b => a.accepts c && b.accepts c
  | negate a => !a.accepts c

end ClassFilter
end Weaving
