import Weaving.Aspect
import Weaving.Journal

/-! The aspect registry: aspects by name and advisors that belong to none, with a version that every
change raises. It gives the candidate advisors for a bean. -/
namespace Weaving

structure Registry where
  aspects : List Aspect := []
  advisors : List Advisor := []
  /-- How often the registry has changed. Like the generation of a configuration it grows without bound, where
  a counter of 64 bits would start again after 2 ^ 64 changes. -/
  version : Nat := 0

namespace Registry

def without (r : Registry) (name : String) : List Aspect := r.aspects.filter fun a => a.name ≠ name

/-- Registers an aspect in place of any other of its name. -/
def register (r : Registry) (a : Aspect) : Registry :=
  { r with aspects := r.without a.name ++ [a], version := r.version + 1 }

def registerAdvisor (r : Registry) (a : Advisor) : Registry :=
  { r with advisors := r.advisors ++ [a], version := r.version + 1 }

def names (r : Registry) : List String := r.aspects.map (·.name)

/-- Removes an aspect, and says whether it was there. -/
def unregister (r : Registry) (name : String) : Bool × Registry :=
  if r.names.contains name then
    (true, { r with aspects := r.without name, version := r.version + 1 })
  else (false, r)

def clear (r : Registry) : Registry := ⟨[], [], r.version + 1⟩

def isEmpty (r : Registry) : Bool := r.aspects.isEmpty && r.advisors.isEmpty

/-- Registers the aspects that a program submits. -/
def load (r : Registry) (submitted : List Aspect) : List Entry × Registry :=
  ([.info ("Auto-loading " ++ toString submitted.length ++ " aspect(s) from registry")],
    submitted.foldl register r)

/-- The advisors of the aspects meant for a bean, then those of no aspect. -/
def candidates (r : Registry) (bean : String) : List Advisor :=
  (r.aspects.filter fun a => a.coversBean bean).flatMap Aspect.advisors ++ r.advisors

variable {r : Registry} {x y : Aspect} {name bean : String} {a : Advisor}

theorem mem_of_mem_without (h : x ∈ r.without name) : x ∈ r.aspects := (List.mem_filter.mp h).1

theorem mem_or_eq_of_mem_register (h : y ∈ (r.register x).aspects) : y ∈ r.aspects ∨ y = x := by
  obtain h | h := List.mem_append.mp h
  · exact .inl (mem_of_mem_without h)
  · exact .inr (List.mem_singleton.mp h)

theorem mem_or_eq_of_mem_registerAdvisor {b : Advisor} (h : b ∈ (r.registerAdvisor a).advisors) :
    b ∈ r.advisors ∨ b = a := by
  obtain h | h := List.mem_append.mp h
  · exact .inl h
  · exact .inr (List.mem_singleton.mp h)

theorem mem_of_mem_unregister (h : x ∈ (r.unregister name).2.aspects) : x ∈ r.aspects := by
  unfold unregister at h
  split at h
  · exact mem_of_mem_without h
  · exact h

theorem advisors_unregister (r : Registry) (name : String) :
    (r.unregister name).2.advisors = r.advisors := by
  unfold unregister
  split <;> rfl

/-- A candidate belongs to no aspect, or it is what an aspect meant for the bean declares, up to its order. -/
theorem exists_of_mem_candidates (h : a ∈ r.candidates bean) : a ∈ r.advisors ∨
    ∃ x ∈ r.aspects, x.coversBean bean = true ∧ ∃ b ∈ x.declared, a.role = b.role := by
  obtain h | h := List.mem_append.mp h
  · right
    obtain ⟨x, hx, ha⟩ := List.mem_flatMap.mp h
    obtain ⟨hx, hcovers⟩ := List.mem_filter.mp hx
    refine ⟨x, hx, hcovers, ?_⟩
    unfold Aspect.advisors at ha
    split at ha
    · obtain ⟨b, hb, rfl⟩ := List.mem_map.mp ha
      exact ⟨b, hb, rfl⟩
    · exact ⟨a, ha, rfl⟩
  · exact .inl h

end Registry
end Weaving
