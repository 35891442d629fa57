import Weaving.Expression
import Weaving.Proofs.Text.Words

/-! Type patterns along the hierarchy. A wildcard names a class if it stands for the name of any type that the
class provides. With a plus it asks of the class that it provides the one type that is called what the
pattern says, stars and all; only for the declaring type of a method are the stars heeded as before. So a
plus changes nothing for a pattern without stars, and may take classes away from one with stars. -/
namespace Weaving

namespace TypePattern

variable {p : TypePattern} {c : Class}

/-- The pattern does not end in a plus. -/
def Plain (p : TypePattern) : Prop := ∀ s, p.text ≠ s ++ "+"

/-- The same pattern with a plus at its end. -/
def plus (p : TypePattern) : TypePattern := ⟨p.text ++ "+"⟩

theorem plain_iff : p.Plain ↔ p.text.toList.getLast? ≠ some '+' := by
  constructor
  · intro h hlast
    obtain ⟨s, hs⟩ := List.getLast?_eq_some_iff.mp hlast
    refine h (String.ofList s) ?_
    rw [← String.toList_inj]
    simpa using hs
  · rintro h s hs
    rw [hs] at h
    simp at h

instance : Decidable p.Plain := decidable_of_iff _ plain_iff.symm

theorem Plain.root? (h : p.Plain) : p.root? = none := by
  simp [TypePattern.root?, plain_iff.mp h]

theorem Plain.bare (h : p.Plain) : p.bare = p.text :=
  (congrArg String.ofList (Text.rdropWhile_of_getLast? (plain_iff.mp h))).trans String.ofList_toList

@[simp] theorem root?_plus (p : TypePattern) : p.plus.root? = some p.text := by
  simp [root?, plus]

@[simp] theorem bare_plus (p : TypePattern) : p.plus.bare = p.bare := by
  simp [bare, plus]

@[simp] theorem acceptsClass_plus (p : TypePattern) (c : Class) :
    p.plus.acceptsClass c = c.provides p.text := by
  simp [acceptsClass]

@[simp] theorem acceptsMethod_plus (p : TypePattern) (m : Method) (c : Class) :
    p.plus.acceptsMethod m (some c) = (Glob.accepts p.bare m.declaring || c.provides p.text) := by
  simp [acceptsMethod]

theorem Plain.acceptsMethod (h : p.Plain) (m : Method) (c : Class) :
    p.acceptsMethod m (some c) = (Glob.accepts p.text m.declaring || p.acceptsClass c) := by
  simp [TypePattern.acceptsMethod, h.bare]

/-- A wildcard names a class by any of the types that the class provides. -/
theorem Plain.acceptsClass_iff (h : p.Plain) : p.acceptsClass c = true ↔
    ∃ type, c.provides type = true ∧ Glob.accepts p.text type = true := by
  simp only [acceptsClass, h.root?, Bool.or_eq_true, List.any_eq_true, Class.allInterfaces,
    mem_distinct, List.mem_flatMap, Class.provides, Declaration.provides, decide_eq_true_eq,
    List.contains_eq_mem]
  constructor
  · rintro (⟨d, hd, hname⟩ | ⟨i, ⟨d, hd, hi⟩, hname⟩)
    · exact ⟨d.name, ⟨d, hd, .inl rfl⟩, hname⟩
    · exact ⟨i, ⟨d, hd, .inr hi⟩, hname⟩
  · rintro ⟨type, ⟨d, hd, rfl | hi⟩, hname⟩
    · exact .inl ⟨d, hd, hname⟩
    · exact .inr ⟨type, ⟨d, hd, hi⟩, hname⟩

/-- Without stars a pattern names the classes that provide the type it is the name of. -/
theorem Plain.acceptsClass_named (h : p.Plain) (named : '*' ∉ p.text.toList) (c : Class) :
    p.acceptsClass c = c.provides p.text := by
  rw [Bool.eq_iff_iff, h.acceptsClass_iff]
  constructor
  · rintro ⟨type, hprovides, hname⟩
    rwa [(Glob.accepts_iff_eq named).mp hname]
  · intro hprovides
    exact ⟨p.text, hprovides, (Glob.accepts_iff_eq named).mpr rfl⟩

/-- The pattern names the class by its stars alone: the class provides no type that is called what the
pattern says. -/
def NamesByStars (p : TypePattern) (c : Class) : Prop :=
  p.acceptsClass c = true ∧ c.provides p.text = false

theorem Plain.not_namesByStars (h : p.Plain) (named : '*' ∉ p.text.toList) : ¬p.NamesByStars c := by
  rintro ⟨haccepts, hprovides⟩
  rw [h.acceptsClass_named named, hprovides] at haccepts
  contradiction

end TypePattern

namespace Expression

/-- An execution pattern accepts what its type pattern does, as far as name and parameters fit. -/
theorem accepts_execution (p : TypePattern) (name : String) (params : Option (List String)) (m : Method)
    (c : Option Class) : (execution p name params).accepts m c =
      ((type p).accepts m c &&
        (Glob.accepts name m.name && params.all fun ps => paramsAccept ps m.params)) :=
  Bool.and_assoc ..

/-- A plus takes away exactly the classes that a pattern names by its stars alone, and of these all methods
but those whose declaring type the pattern names; so it takes nothing away from a pattern without
stars. -/
theorem plus_narrows_iff {p : TypePattern} (plain : p.Plain) (c : Class) (m : Method) (name : String)
    (params : Option (List String)) :
    (((type p).couldAccept c = true → (type p.plus).couldAccept c = true) ↔ ¬p.NamesByStars c) ∧
    (((execution p name params).couldAccept c = true →
        (execution p.plus name params).couldAccept c = true) ↔ ¬p.NamesByStars c) ∧
    (((type p).accepts m (some c) = true → (type p.plus).accepts m (some c) = true) ↔
      ¬(p.NamesByStars c ∧ Glob.accepts p.text m.declaring = false)) ∧
    (((execution p name params).accepts m (some c) = true →
        (execution p.plus name params).accepts m (some c) = true) ↔
      ¬((p.NamesByStars c ∧ Glob.accepts p.text m.declaring = false) ∧
        Glob.accepts name m.name = true ∧ params.all (fun ps => paramsAccept ps m.params) = true)) ∧
    ('*' ∉ p.text.toList → ¬p.NamesByStars c) := by
  have hclass : (p.acceptsClass c = true → p.plus.acceptsClass c = true) ↔ ¬p.NamesByStars c := by
    simp [TypePattern.NamesByStars]
  have hmethod : ((type p).accepts m (some c) = true → (type p.plus).accepts m (some c) = true) ↔
      ¬(p.NamesByStars c ∧ Glob.accepts p.text m.declaring = false) := by
    simp only [accepts, evaluate, TypePattern.acceptsMethod_plus, plain.acceptsMethod, plain.bare,
      TypePattern.NamesByStars]
    cases Glob.accepts p.text m.declaring <;> simp
  refine ⟨hclass, hclass, hmethod, ?_, plain.not_namesByStars⟩
  rw [accepts_execution, accepts_execution, ← Bool.and_eq_true_iff]
  cases Glob.accepts name m.name && params.all fun ps => paramsAccept ps m.params with
  | false => simp
  | true => simpa using hmethod

/-- Services by their name. -/
def services : TypePattern := ⟨"*Service"⟩

/-- A service with methods that its superclass declares. -/
def userService : Class :=
  .extending ⟨"UserService", [], [], false, false, false⟩ (.named "Repository")

/-- The class is taken away, but not a method that it declares itself. -/
theorem services_keep_own : services.Plain ∧ services.NamesByStars userService ∧
    (execution services.plus "save*" none).accepts ⟨"UserService", "saveAll", []⟩ (some userService) =
      true := by
  have hplain : services.Plain := by decide
  have hkept := (plus_narrows_iff hplain userService ⟨"UserService", "saveAll", []⟩ "save*" none).2.2.2.1
  exact ⟨hplain, ⟨by decide, by decide⟩, hkept.mpr (fun h => absurd h.1.2 (by decide)) (by decide)⟩

theorem plus_narrows_services : services.Plain ∧
    (type services).couldAccept userService = true ∧
    (type services.plus).couldAccept userService = false ∧
    (type services).accepts ⟨"Repository", "save", []⟩ (some userService) = true ∧
    (type services.plus).accepts ⟨"Repository", "save", []⟩ (some userService) = false := by
  decide

end Expression
end Weaving
