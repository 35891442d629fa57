import Weaving.Proofs.Pointcut.Algebra
import Weaving.Proofs.Proxy.Exposure
import Weaving.Proofs.Resolution

/-! What backs the interfaces of a proxy. An interface is backed for a class if the class provides it or an
introduction whose filter accepts the class declares it; then the interceptor of the introduction is in the
chain of each of its methods. A plan may still list an interface that nothing backs: the check heeds
introductions whatever their filters, and is not made when a subclass is asked for of a class that is an
interface or a proxy. -/
namespace Weaving

namespace Class

theorem provides_name (c : Class) : c.provides c.name = true := by
  simp [provides, lineage, Declaration.provides, name]

theorem provides_of_mem_allInterfaces {c : Class} {i : String} (h : i ∈ c.allInterfaces) :
    c.provides i = true := by
  obtain ⟨d, hd, hi⟩ : ∃ d ∈ c.lineage, i ∈ d.interfaces := by simpa [allInterfaces] using h
  exact List.any_eq_true.mpr ⟨d, hd, by simp [Declaration.provides, hi]⟩

end Class

namespace Plan

variable {d : Advised} {c : Class} {as : List Advisor} {is : List String} {i : String} {p plan : Plan}

/-- An introduction of the interface among the advisors whose filter accepts the class. -/
def Introduces (as : List Advisor) (c : Class) (i : String) : Prop :=
  ∃ a ∈ as, ∃ x, a.introduction? = some x ∧ i ∈ x.interfaces ∧ x.classFilter.accepts c = true

/-- The class provides the interface or it is introduced to the class. -/
def Backed (as : List Advisor) (c : Class) (i : String) : Prop :=
  c.provides i = true ∨ Introduces as c i

/-- The configuration lists an interface that the class does not provide and whose introductions all reject
the class, and nothing notices: some introduction of it satisfies the check, or a subclass is asked
for, and there is no check. -/
structure Slips (d : Advised) (c : Class) (i : String) : Prop where
  listed : i ∈ d.interfaces
  missing : c.provides i = false
  rejected : ¬Introduces d.advisors c i
  unnoticed : d.config.optimize = true ∨ d.config.proxyTargetClass = true ∨
    ∃ a ∈ d.advisors, i ∈ Advised.introduced a

/-- The check passes if each interface is introduced, to whatever classes, or provided. -/
theorem checkBacked_eq_ok : checkBacked c as is = .ok () ↔
    ∀ i ∈ is, (∃ a ∈ as, i ∈ Advised.introduced a) ∨ c.provides i = true := by
  induction is with
  | nil => simp [checkBacked]
  | cons i is ih =>
    unfold checkBacked
    split
    next h =>
      have hi : (∃ a ∈ as, i ∈ Advised.introduced a) ∨ c.provides i = true := by simpa using h
      simp [ih, hi]
    next h =>
      have hi : ¬((∃ a ∈ as, i ∈ Advised.introduced a) ∨ c.provides i = true) := by simpa using h
      simp only [List.forall_mem_cons, hi, false_and, reduceCtorEq]

theorem interfaces_of_extending (h : extending c is = .ok p) (hp : p.superclass = none)
    (hi : i ∈ p.interfaces) : i ∈ is ∨ c.provides i = true := by
  obtain rfl | rfl | rfl := extending_cases h
  · obtain hi | rfl := mem_addOnce.mp hi
    · exact .inl hi
    · exact .inr c.provides_name
  · exact (mem_addAll.mp hi).imp_right Class.provides_of_mem_allInterfaces
  · contradiction

/-- Completing a plan adds no more than the interface that shows the configuration. -/
theorem interfaces_of_complete {config : ProxySettings} (h : complete config p = .ok plan)
    (hi : i ∈ plan.interfaces) (hne : i ≠ advisedInterface) : i ∈ p.interfaces := by
  obtain ⟨-, rfl⟩ := complete_eq_ok.mp h
  dsimp only at hi
  split at hi
  · exact hi
  · exact (mem_addOnce.mp hi).resolve_right hne

theorem superclass_of_complete {config : ProxySettings} (h : complete config p = .ok plan) :
    plan.superclass = p.superclass := by
  obtain ⟨-, rfl⟩ := complete_eq_ok.mp h
  rfl

/-- What a plan without a superclass lists is provided by the class, or listed by the configuration without
having been found amiss. -/
theorem listed_of_choose (h : choose d (some c) = .ok plan) (hplan : plan.superclass = none)
    (hi : i ∈ plan.interfaces) (hne : i ≠ advisedInterface) : c.provides i = true ∨
      i ∈ d.interfaces ∧ (d.config.optimize = true ∨ d.config.proxyTargetClass = true ∨
        ∃ a ∈ d.advisors, i ∈ Advised.introduced a) := by
  obtain ⟨p, hcomplete, ⟨hasked, x, hx, hextending⟩ | ⟨rfl, hcheck⟩⟩ := choose_cases h
  · obtain rfl := Option.some.inj hx
    have hp : p.superclass = none := (superclass_of_complete hcomplete).symm.trans hplan
    obtain hlisted | hprovides :=
      interfaces_of_extending hextending hp (interfaces_of_complete hcomplete hi hne)
    · obtain hoptimize | htarget | hempty := hasked
      · exact .inr ⟨hlisted, .inl hoptimize⟩
      · exact .inr ⟨hlisted, .inr (.inl htarget)⟩
      · rw [hempty] at hlisted
        contradiction
    · exact .inl hprovides
  · have hlisted : i ∈ d.interfaces := interfaces_of_complete hcomplete hi hne
    obtain hintroduced | hprovides := checkBacked_eq_ok.mp (hcheck c rfl) i hlisted
    · exact .inr ⟨hlisted, .inr (.inr hintroduced)⟩
    · exact .inl hprovides

theorem introduction?_eq_some {a : Advisor} {x : Introduction} :
    a.introduction? = some x ↔ a.role = .introduction x := by
  cases hr : a.role <;> simp [Advisor.introduction?, hr]

/-- The introductions that take part in the chain of a method are those of its declaring type whose filter
accepts the class. -/
theorem mem_matched_iff_introduces {a : Advisor} {x : Introduction} (hx : a.introduction? = some x)
    (m : Method) : (a, none) ∈ Chain.matched as m c ↔
      a ∈ as ∧ m.declaring ∈ x.interfaces ∧ x.classFilter.accepts c = true := by
  simp [Chain.mem_matched, Chain.match?, introduction?_eq_some.mp hx]

theorem introduces_iff_matched (m : Method) : Introduces as c m.declaring ↔
    ∃ a x, a.introduction? = some x ∧ (a, none) ∈ Chain.matched as m c := by
  constructor
  · rintro ⟨a, ha, x, hx, hm, hc⟩
    exact ⟨a, x, hx, (mem_matched_iff_introduces hx m).mpr ⟨ha, hm, hc⟩⟩
  · rintro ⟨a, x, hx, hmatched⟩
    obtain ⟨ha, hm, hc⟩ := (mem_matched_iff_introduces hx m).mp hmatched
    exact ⟨a, ha, x, hx, hm, hc⟩

/-- The interceptor of an introduction that takes part is in the chain, whatever the arguments. -/
theorem mem_resolve_of_introduction {adapters : Adapters} {a : Advisor} {x : Introduction} {m : Method}
    {r : Resolution} (hx : a.introduction? = some x) (ha : (a, none) ∈ Chain.matched as m c)
    (hr : (Chain.resolve adapters as m (some c)).1 = .ok r) :
    (⟨x.interceptor.interceptor, none⟩ : Element) ∈ r.chain := by
  obtain ⟨is, his, hmem⟩ := Chain.mem_resolve_of_matched hr ha
  have hinterceptors : adapters.interceptors a = .ok [x.interceptor.interceptor] := by
    simp [Adapters.interceptors, introduction?_eq_some.mp hx]
  obtain rfl := Except.ok.inj (hinterceptors.symm.trans his)
  exact hmem _ (by simp)

theorem backed_iff_not_slips (h : choose d (some c) = .ok plan) (hplan : plan.superclass = none)
    (hi : i ∈ plan.interfaces) (hne : i ≠ advisedInterface) :
    Backed d.advisors c i ↔ ¬Slips d c i := by
  constructor
  · rintro (hprovides | hintroduces) hslips
    · rw [hslips.missing] at hprovides
      contradiction
    · exact hslips.rejected hintroduces
  · intro hslips
    by_cases hintroduces : Introduces d.advisors c i
    · exact .inr hintroduces
    · left
      obtain hprovides | ⟨hlisted, hunnoticed⟩ := listed_of_choose h hplan hi hne
      · exact hprovides
      · exact Bool.eq_true_of_not_eq_false fun hmissing =>
          hslips ⟨hlisted, hmissing, hintroduces, hunnoticed⟩

/-- In a plan without a superclass all interfaces but the one that shows the configuration are backed, except
just those that slip in. A method that is exposed through an interface which has not slipped in is one of
a type that the class provides, or else an introduction answers it: its interceptor takes part in the
chain of the method, under no condition on arguments, whenever that chain can be resolved. -/
theorem interfaces_backed_iff (h : choose d (some c) = .ok plan) (hplan : plan.superclass = none) :
    (∀ i ∈ plan.interfaces, i ≠ advisedInterface → (Backed d.advisors c i ↔ ¬Slips d c i)) ∧
    ∀ m : Method, plan.exposes m = true → m.declaring ≠ advisedInterface →
      (¬Slips d c m.declaring ↔ c.provides m.declaring = true ∨
        ∃ a x, a.introduction? = some x ∧ (a, none) ∈ Chain.matched d.advisors m c ∧
          ∀ adapters r, (Chain.resolve adapters d.advisors m (some c)).1 = .ok r →
            ⟨x.interceptor.interceptor, none⟩ ∈ r.chain) := by
  refine ⟨fun i hi hne => backed_iff_not_slips h hplan hi hne, fun m hm hne => ?_⟩
  have hlisted : m.declaring ∈ plan.interfaces := by simpa [exposes, hplan] using hm
  rw [← backed_iff_not_slips h hplan hlisted hne, Backed, introduces_iff_matched]
  refine or_congr_right ⟨?_, ?_⟩
  · rintro ⟨a, x, hx, ha⟩
    exact ⟨a, x, hx, ha, fun adapters r hr => mem_resolve_of_introduction hx ha hr⟩
  · rintro ⟨a, x, hx, ha, -⟩
    exact ⟨a, x, hx, ha⟩

/-- An introduction of caching to the classes with a name. -/
def caching (pattern : String) : Advisor where
  role := .introduction
    { classFilter := .name pattern
      interfaces := ["Cache"]
      interceptor := ⟨0, ⟨"caching", Program.proceed⟩, fun _ _ => true⟩ }

def jdbcRepo : Class := ⟨{ name := "JdbcRepo", interfaces := ["Repo"] }, []⟩

/-- A repository with caching. -/
def cachingRepo (pattern : String) : Advised :=
  Setup.result {} .builtIn (fun _ => 0) [.expose "Repo", .operate (.add (caching pattern))]

def repoPlan : Plan := ⟨none, ["Repo", "Cache", advisedInterface]⟩

theorem repo_backed : choose (cachingRepo "Jdbc*") (some jdbcRepo) = .ok repoPlan ∧
    repoPlan.superclass = none ∧ Backed (cachingRepo "Jdbc*").advisors jdbcRepo "Cache" := by
  have hplan : choose (cachingRepo "Jdbc*") (some jdbcRepo) = .ok repoPlan := rfl
  have hintroduces : Introduces (cachingRepo "Jdbc*").advisors jdbcRepo "Cache" :=
    ⟨caching "Jdbc*", List.mem_singleton.mpr rfl, _, rfl, by simp, by decide⟩
  have hbacked := (interfaces_backed_iff hplan rfl).1 "Cache" (by decide) (by decide)
  exact ⟨hplan, rfl, hbacked.mpr fun hslips => hslips.rejected hintroduces⟩

/-- A type that is an interface. -/
def repoType : Class := ⟨{ name := "Repo", isInterface := true }, []⟩

/-- Caching of the interface without an introduction, and a subclass is asked for. -/
def optimizedRepo : Advised :=
  Setup.result { optimize := true } .builtIn (fun _ => 0) [.expose "Cache"]

/-- Plans with an interface that is introduced to other classes only, and with one that is not introduced
at all. -/
theorem cache_unbacked :
    (choose (cachingRepo "Order*") (some jdbcRepo) = .ok repoPlan ∧ "Cache" ∈ repoPlan.interfaces ∧
      ¬Backed (cachingRepo "Order*").advisors jdbcRepo "Cache") ∧
    choose optimizedRepo (some repoType) = .ok ⟨none, ["Cache", "Repo", advisedInterface]⟩ ∧
      ¬Backed optimizedRepo.advisors repoType "Cache" := by
  refine ⟨⟨rfl, by decide, ?_⟩, rfl, ?_⟩
  · rintro (hprovides | ⟨a, ha, x, hx, -, hc⟩)
    · exact absurd hprovides (by decide)
    · obtain rfl : a = caching "Order*" := List.mem_singleton.mp ha
      cases hx
      exact absurd hc (by decide)
  · rintro (hprovides | ⟨a, ha, -⟩)
    · exact absurd hprovides (by decide)
    · exact absurd ha List.not_mem_nil

end Plan
end Weaving
