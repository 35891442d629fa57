import Weaving.Advisor

/-! Eligibility: which advisors can apply to a class at all. Introductions come first, and the others
are judged knowing whether there are any. -/
namespace Weaving.Advisor

/-- Whether some introduction among the advisors applies to a class. -/
def introduces (as : List Advisor) (c : Class) : Bool :=
  as.any fun a => a.introduction?.any fun i => i.classFilter.accepts c

/-- Whether an advisor can apply to some method of a class. -/
def concerns (a : Advisor) (c : Class) (introductions : Bool) : Bool :=
  match a.role with
  | .introduction i => i.classFilter.accepts c
  | .pointcut p _ =>
    p.classFilter.accepts c &&
      c.allMethods.any fun m => p.methodMatcher.acceptsStatic m (some c) introductions

/-- The advisors that can apply to a class: its introductions, then the others. -/
def eligible (as : List Advisor) (c : Class) : List Advisor :=
  let introductions := as.filter fun a => a.isIntroduction && a.concerns c false
  introductions ++ as.filter fun a => !a.isIntroduction && a.concerns c !introductions.isEmpty

end Weaving.Advisor
