import Weaving.Pointcut.MethodMatcher

/-! Exclusions. Called on a class that inherits it, a method goes by two names: one under the type that declares
it, and one under the class. Each name is tried by itself, with patterns and exclusions. So an exclusion that
fits only one of the names does not turn the method away if the other passes, and what is excluded for sure is
a method all of whose names are. -/
namespace Weaving

namespace Method

/-- The names of a method that is called on a class: under its declaring type and under the class. -/
def namesOn (m : Method) (c : Option Class) : List String :=
  m.qualifiedName :: (c.map fun c => c.name ++ "." ++ m.name).toList

@[simp] theorem namesOn_none (m : Method) : m.namesOn none = [m.qualifiedName] := rfl

@[simp] theorem namesOn_some (m : Method) (c : Class) :
    m.namesOn (some c) = [m.qualifiedName, c.name ++ "." ++ m.name] := rfl

/-- Where the class is the one that declares the method, both names are the same. -/
theorem eq_of_mem_namesOn {m : Method} {c : Option Class} (h : ∀ d ∈ c, d.name = m.declaring)
    {name : String} (hname : name ∈ m.namesOn c) : name = m.qualifiedName := by
  cases c with
  | none => simpa using hname
  | some d =>
    have hd : d.name = m.declaring := h d rfl
    simpa [hd, qualifiedName] using hname

end Method

namespace NameTests

/-- Some pattern fits the name. -/
def Includes (t : NameTests) (name : String) : Prop := ∃ p ∈ t.patterns, p name = true

/-- Some excluded pattern fits the name. -/
def Excludes (t : NameTests) (name : String) : Prop := ∃ p ∈ t.excluded, p name = true

variable {t : NameTests} {m : Method} {c : Option Class} {name : String}

theorem acceptsName_iff : t.acceptsName name = true ↔ t.Includes name ∧ ¬t.Excludes name := by
  simp [acceptsName, Includes, Excludes]

/-- The name under the class need not be tried if it is the same as the other, but it may be. -/
theorem accepts_eq_any (t : NameTests) (m : Method) (c : Option Class) :
    t.accepts m c = (m.namesOn c).any t.acceptsName := by
  cases c with
  | none => simp [accepts]
  | some c =>
    by_cases hc : c.name = m.declaring
    · simp [accepts, hc, Method.qualifiedName]
    · simp [accepts, hc]

theorem accepts_iff : t.accepts m c = true ↔
    ∃ name ∈ m.namesOn c, t.Includes name ∧ ¬t.Excludes name := by
  simp only [accepts_eq_any, List.any_eq_true, acceptsName_iff]

/-- One name of the method is excluded, and another passes. -/
def Slips (t : NameTests) (m : Method) (c : Option Class) : Prop :=
  ∃ name ∈ m.namesOn c, ∃ other ∈ m.namesOn c, t.Excludes name ∧ t.Includes other ∧ ¬t.Excludes other

/-- An exclusion turns a method away just if it does not slip through by another name. -/
theorem turned_away_iff :
    ((∃ name ∈ m.namesOn c, t.Excludes name) → t.accepts m c = false) ↔ ¬t.Slips m c := by
  rw [← Bool.not_eq_true, accepts_iff]
  constructor
  · rintro h ⟨name, hname, other, hother, hexcluded, hpasses⟩
    exact h ⟨name, hname, hexcluded⟩ ⟨other, hother, hpasses⟩
  · rintro h ⟨name, hname, hexcluded⟩ ⟨other, hother, hpasses⟩
    exact h ⟨name, hname, other, hother, hexcluded, hpasses⟩

/-- Exclusions that do not tell the names of a method apart let nothing slip. -/
theorem not_slips_of_uniform (h : ∀ p ∈ t.excluded, ∀ name ∈ m.namesOn c, ∀ other ∈ m.namesOn c,
    p name = p other) : ¬t.Slips m c := by
  rintro ⟨name, hname, other, hother, ⟨p, hp, hfits⟩, -, hkept⟩
  apply hkept
  exact ⟨p, hp, by rwa [← h p hp name hname other hother]⟩

/-- A method passes if one of its names fits a pattern and no exclusion. So an exclusion that fits one of the
names turns the method away unless it slips through by the other. Nothing slips that is excluded by all its
names, that has only one because it is called on the class that declares it, or whose names the exclusions do
not tell apart. -/
theorem exclusion_absolute_iff (t : NameTests) (m : Method) (c : Option Class) :
    ((MethodMatcher.tests t).accepts m c = true ↔
      ∃ name ∈ m.namesOn c, t.Includes name ∧ ¬t.Excludes name) ∧
    (((∃ name ∈ m.namesOn c, t.Excludes name) → (MethodMatcher.tests t).accepts m c = false) ↔
      ¬t.Slips m c) ∧
    ((∀ name ∈ m.namesOn c, t.Excludes name) → ¬t.Slips m c) ∧
    ((∀ d ∈ c, d.name = m.declaring) → ¬t.Slips m c) ∧
    ((∀ p ∈ t.excluded, ∀ name ∈ m.namesOn c, ∀ other ∈ m.namesOn c, p name = p other) →
      ¬t.Slips m c) := by
  refine ⟨accepts_iff, turned_away_iff, ?_, ?_, not_slips_of_uniform⟩
  · rintro hall ⟨-, -, other, hother, -, -, hkept⟩
    exact hkept (hall other hother)
  · intro hown
    apply not_slips_of_uniform
    intro p _ name hname other hother
    rw [Method.eq_of_mem_namesOn hown hname, Method.eq_of_mem_namesOn hown hother]

/-- Services, but none of the internal types. -/
def publicServices : NameTests where
  patterns := [Glob.accepts "*Service.*"]
  excluded := [Glob.accepts "Internal*"]

/-- Internal types get through where one of the two names is not internal, whichever it is. -/
theorem publicServices_slip :
    publicServices.Excludes "InternalUserService.load" ∧
      (MethodMatcher.tests publicServices).accepts ⟨"UserService", "load", ["u64"]⟩
        (some (.named "InternalUserService")) = true ∧
    publicServices.Excludes "InternalBase.load" ∧
      (MethodMatcher.tests publicServices).accepts ⟨"InternalBase", "load", ["u64"]⟩
        (some (.named "UserService")) = true := by
  have hexcludes (name : String) (h : Glob.accepts "Internal*" name = true) :
      publicServices.Excludes name := ⟨_, List.mem_singleton.mpr rfl, h⟩
  exact ⟨hexcludes _ (by decide +kernel), by decide +kernel, hexcludes _ (by decide +kernel),
    by decide +kernel⟩

end NameTests
end Weaving
