import Weaving.Pointcut.MethodMatcher
import Weaving.Text.Regex.Reader

/-! Pointcuts: a class filter together with a method matcher, and how pointcuts are combined. In a union
each side's matcher counts only for the classes of that side's filter. -/
namespace Weaving

structure Pointcut where
  classFilter : ClassFilter := .any
  methodMatcher : MethodMatcher := .any
  deriving Inhabited

namespace Pointcut

/-- Accepts every method of every class. -/
def any : Pointcut := ⟨.any, .any⟩

/-- An expression serves as filter and as matcher. -/
def ofExpression (e : Expression) : Pointcut := ⟨.expression e, .expression e⟩

def restrictClasses (p : Pointcut) (f : ClassFilter) : Pointcut :=
  { p with classFilter := .intersection p.classFilter f }

def restrictMethods (p : Pointcut) (m : MethodMatcher) : Pointcut :=
  { p with methodMatcher := .intersection p.methodMatcher m }

def intersection (p q : Pointcut) : Pointcut :=
  (p.restrictClasses q.classFilter).restrictMethods q.methodMatcher

def union (p q : Pointcut) : Pointcut :=
  ⟨.union p.classFilter q.classFilter,
    .union (.within p.classFilter p.methodMatcher) (.within q.classFilter q.methodMatcher)⟩

end Pointcut

namespace NameTests

/-- The search for a regular expression, or a fault that names it. -/
def compile (pattern : String) : Except Fault (String → Bool) :=
  match Regex.ofString? pattern with
  | some r => .ok r.search
  | none => .error (.config ("invalid method pattern '" ++ pattern ++ "'"))

/-- Tests by regular expressions; patterns are compiled before excluded ones. -/
def ofRegexes (patterns excluded : List String) : Except Fault NameTests := do
  return ⟨← patterns.mapM compile, ← excluded.mapM compile⟩

end NameTests
end Weaving
