import Mathlib.Data.List.Nodup
import Weaving.Proofs.Expression.TypePattern

/-! Walks up the hierarchy: the class, its superclass and so on are met one after the other. Interfaces and
methods are collected on the way, and of what is met more than once the first is kept. Hence all questions
about types see the same names, and a method is the one of the nearest class that declares its shape. -/
namespace Weaving

section First

variable {α κ : Type} [DecidableEq κ] {key : α → κ} {met kept : List α} {x : α}

/-- Keeps what is met unless something of its kind has been kept. -/
def keepNew (key : α → κ) (kept : List α) (x : α) : List α :=
  if key x ∈ kept.map key then kept else kept ++ [x]

/-- What is met last is found only if nothing of its kind has been met before. -/
theorem find?_concat_eq_some {k : κ} {y : α} :
    (met ++ [x]).find? (fun z => key z = k) = some y ↔
      met.find? (fun z => key z = k) = some y ∨ k ∉ met.map key ∧ key x = k ∧ x = y := by
  rw [List.find?_append, Option.or_eq_some_iff, List.find?_singleton]
  refine or_congr_right (and_congr ?_ ?_)
  · simp
  · by_cases hk : key x = k <;> simp [hk]

variable [DecidableEq α]

/-- Of what has been met the first of each kind is kept, in the order in which they were met. -/
structure KeepsFirst (key : α → κ) (met kept : List α) : Prop where
  apart : (kept.map key).Nodup
  mem_iff : ∀ x, x ∈ kept ↔ met.find? (fun y => key y = key x) = some x
  ordered : kept.Pairwise fun x y => met.idxOf x < met.idxOf y

namespace KeepsFirst

theorem nil : KeepsFirst key ([] : List α) [] := ⟨by simp, by simp, .nil⟩

theorem mem (h : KeepsFirst key met kept) (hx : x ∈ kept) : x ∈ met :=
  List.mem_of_find?_eq_some ((h.mem_iff x).mp hx)

/-- Of everything that has been met, the first of its kind is kept. -/
theorem exists_first (h : KeepsFirst key met kept) (hx : x ∈ met) :
    ∃ y ∈ kept, key y = key x ∧ met.find? (fun z => key z = key x) = some y := by
  have hfound : (met.find? fun z => key z = key x).isSome := List.find?_isSome.mpr ⟨x, hx, by simp⟩
  obtain ⟨y, hy⟩ := Option.isSome_iff_exists.mp hfound
  have hkey : key y = key x := by simpa using List.find?_some hy
  exact ⟨y, (h.mem_iff y).mpr (by simpa only [hkey] using hy), hkey, hy⟩

theorem mem_keys (h : KeepsFirst key met kept) (k : κ) : k ∈ kept.map key ↔ k ∈ met.map key := by
  simp only [List.mem_map]
  constructor
  · rintro ⟨x, hx, rfl⟩
    exact ⟨x, h.mem hx, rfl⟩
  · rintro ⟨x, hx, rfl⟩
    obtain ⟨y, hy, hkey, -⟩ := h.exists_first hx
    exact ⟨y, hy, hkey⟩

/-- What is met later changes no place of what is kept. -/
theorem ordered_concat (h : KeepsFirst key met kept) (x : α) :
    kept.Pairwise fun y z => (met ++ [x]).idxOf y < (met ++ [x]).idxOf z :=
  h.ordered.imp_of_mem fun hy hz hlt => by
    rwa [List.idxOf_append_of_mem (h.mem hy), List.idxOf_append_of_mem (h.mem hz)]

/-- What is of a kind met before changes nothing but what has been met. -/
theorem again (h : KeepsFirst key met kept) (hx : key x ∈ kept.map key) :
    KeepsFirst key (met ++ [x]) kept where
  apart := h.apart
  mem_iff y := by
    rw [h.mem_iff, find?_concat_eq_some, ← h.mem_keys]
    refine ⟨.inl, ?_⟩
    rintro (hy | ⟨hnew, hkey, -⟩)
    · exact hy
    · exact absurd (hkey ▸ hx) hnew
  ordered := h.ordered_concat x

/-- What is the first of its kind goes behind all that is kept. -/
theorem anew (h : KeepsFirst key met kept) (hx : key x ∉ kept.map key) :
    KeepsFirst key (met ++ [x]) (kept ++ [x]) where
  apart := by
    rw [List.map_append, List.map_singleton, ← List.concat_eq_append]
    exact h.apart.concat hx
  mem_iff y := by
    rw [List.mem_append, List.mem_singleton, h.mem_iff, find?_concat_eq_some, ← h.mem_keys]
    refine or_congr_right ⟨?_, fun hy => hy.2.2.symm⟩
    rintro rfl
    exact ⟨hx, rfl, rfl⟩
  ordered := by
    have hmet : x ∉ met := fun hmem => hx ((h.mem_keys _).mpr (List.mem_map_of_mem hmem))
    refine List.pairwise_append.mpr ⟨h.ordered_concat x, List.pairwise_singleton .., ?_⟩
    -- the new place is behind all that has been met
    intro y hy z hz
    obtain rfl := List.mem_singleton.mp hz
    rw [List.idxOf_append_of_mem (h.mem hy), List.idxOf_append_of_notMem hmet]
    exact Nat.lt_add_right _ (List.idxOf_lt_length_of_mem (h.mem hy))

theorem step (h : KeepsFirst key met kept) (x : α) :
    KeepsFirst key (met ++ [x]) (keepNew key kept x) := by
  unfold keepNew
  split
  next hx => exact h.again hx
  next hx => exact h.anew hx

theorem run (h : KeepsFirst key met kept) (xs : List α) :
    KeepsFirst key (met ++ xs) (xs.foldl (keepNew key) kept) := by
  -- on what is still to be met; the invariant ties what is kept to all that has been met so far
  induction xs generalizing met kept with
  | nil => simpa using h
  | cons x xs ih => simpa using ih (h.step x)

end KeepsFirst

theorem distinct_keepsFirst (xs : List α) : KeepsFirst id xs (distinct xs) := by
  have hstep : (addOnce : List α → α → List α) = keepNew id := by
    funext kept x
    simp [addOnce, keepNew]
  rw [distinct, addAll, hstep]
  exact KeepsFirst.nil.run xs

end First

/-- Name and parameter types, by which methods override each other. -/
def Method.shape (m : Method) : String × List String := (m.name, m.params)

theorem Method.overrides_iff {m n : Method} : m.overrides n = true ↔ m.shape = n.shape := by
  simp [overrides, shape]

namespace Class

variable {c s : Class} {type : String}

theorem addMethod_eq : addMethod = keepNew Method.shape := by
  funext ms m
  simp [addMethod, keepNew, Method.overrides_iff]

theorem eq_extending_of_superclass (h : c.superclass = some s) : c = extending c.own s := by
  obtain ⟨d, ancestors⟩ := c
  cases ancestors with
  | nil => simp [superclass] at h
  | cons e es =>
    obtain rfl : ⟨e, es⟩ = s := by simpa [superclass] using h
    rfl

theorem length_ancestors_of_superclass (h : c.superclass = some s) :
    s.ancestors.length < c.ancestors.length := by
  rw [eq_extending_of_superclass h]
  simp [extending, lineage]

/-- The class, its superclass and so on, as they are met on the way up. -/
def walk (c : Class) : List Class :=
  match h : c.superclass with
  | none => [c]
  | some s =>
    have := length_ancestors_of_superclass h
    c :: s.walk
termination_by c.ancestors.length

theorem walk_extending (d : Declaration) (c : Class) : (extending d c).walk = extending d c :: c.walk := by
  rw [walk]
  rfl

theorem map_own_walk (c : Class) : c.walk.map own = c.lineage := by
  fun_induction walk c with
  | case1 c h =>
    obtain ⟨d, ancestors⟩ := c
    cases ancestors with
    | nil => rfl
    | cons e es => simp [superclass] at h
  | case2 c s h _ ih =>
    rw [List.map_cons, ih, eq_extending_of_superclass h]
    rfl

theorem provides_iff : c.provides type = true ↔ ∃ s ∈ c.walk, s.name = type ∨ type ∈ s.interfaces := by
  simp [provides, ← map_own_walk, Declaration.provides, name, interfaces]

/-- The interfaces that the class and its superclasses declare, as they are met on the way up. -/
def metInterfaces (c : Class) : List String := c.walk.flatMap interfaces

/-- The methods that the class and its superclasses declare, as they are met on the way up. -/
def metMethods (c : Class) : List Method := c.walk.flatMap methods

theorem allInterfaces_keepsFirst (c : Class) : KeepsFirst id c.metInterfaces c.allInterfaces := by
  have hmet : c.lineage.flatMap (·.interfaces) = c.metInterfaces := by
    rw [← map_own_walk, List.flatMap_map]
    rfl
  rw [allInterfaces, hmet]
  exact distinct_keepsFirst _

theorem allMethods_keepsFirst (c : Class) : KeepsFirst Method.shape c.metMethods c.allMethods := by
  have hmet : c.lineage.flatMap (·.methods) = c.metMethods := by
    rw [← map_own_walk, List.flatMap_map]
    rfl
  rw [allMethods, hmet, addMethod_eq]
  exact KeepsFirst.nil.run _

/-- All walks up the hierarchy see the same types. A wildcard names the class just if it stands for a type
that the class provides, and these are the names and the interfaces of the classes that are met; all
interfaces are those that are met, each once and in the order in which they are met first. -/
theorem walks_agree {p : TypePattern} (plain : p.Plain) (c : Class) :
    (p.acceptsClass c = true ↔ ∃ type, c.provides type = true ∧ Glob.accepts p.text type = true) ∧
    (∀ type, c.provides type = true ↔ ∃ s ∈ c.walk, s.name = type ∨ type ∈ s.interfaces) ∧
    c.allInterfaces.Nodup ∧
    (∀ i, i ∈ c.allInterfaces ↔ ∃ s ∈ c.walk, i ∈ s.interfaces) ∧
    c.allInterfaces.Pairwise (fun i j => c.metInterfaces.idxOf i < c.metInterfaces.idxOf j) := by
  have hall : KeepsFirst id c.metInterfaces c.allInterfaces := c.allInterfaces_keepsFirst
  have hmem (i : String) : i ∈ c.allInterfaces ↔ ∃ s ∈ c.walk, i ∈ s.interfaces := by
    have hkeys := hall.mem_keys i
    rw [List.map_id, List.map_id] at hkeys
    rw [hkeys, metInterfaces, List.mem_flatMap]
  exact ⟨plain.acceptsClass_iff, fun _ => provides_iff, by simpa using hall.apart, hmem, hall.ordered⟩

def baseRepository : Class :=
  ⟨⟨"BaseRepository", ["Repository", "Auditable"],
    [⟨"BaseRepository", "save", ["Entity"]⟩, ⟨"BaseRepository", "load", []⟩], false, false, false⟩, []⟩

/-- A class with an interface and a method that its superclass has as well. -/
def userRepository : Class :=
  .extending ⟨"UserRepository", ["Auditable"], [⟨"UserRepository", "save", ["Entity"]⟩], false, false, false⟩
    baseRepository

theorem baseRepository_met : baseRepository ∈ userRepository.walk := by
  rw [userRepository, walk_extending, walk]
  exact List.mem_cons_of_mem _ (List.mem_singleton_self _)

/-- The pattern fits an interface that only the superclass declares. -/
theorem userRepository_named : (⟨"Repo*"⟩ : TypePattern).Plain ∧
    (∃ type, userRepository.provides type = true ∧ Glob.accepts "Repo*" type = true) ∧
    "Repository" ∈ userRepository.allInterfaces := by
  have hplain : (⟨"Repo*"⟩ : TypePattern).Plain := by decide
  have hwalks := walks_agree hplain userRepository
  exact ⟨hplain, hwalks.1.mp (by decide),
    (hwalks.2.2.2.1 "Repository").mpr ⟨baseRepository, baseRepository_met, by decide⟩⟩

example : userRepository.allInterfaces = ["Auditable", "Repository"] := by decide

/-- Of one shape the nearest declaration wins. All methods differ in shape; for each method that is met on the
way up there is the first one of its shape, nothing else, and they are in the order in which they are
met. -/
theorem nearest_declarations_win (c : Class) :
    (c.allMethods.map Method.shape).Nodup ∧
    (∀ s ∈ c.walk, ∀ m ∈ s.methods, ∃ n ∈ c.allMethods, n.shape = m.shape ∧
      c.metMethods.find? (fun k => k.shape = m.shape) = some n) ∧
    (∀ n ∈ c.allMethods, c.metMethods.find? (fun k => k.shape = n.shape) = some n) ∧
    c.allMethods.Pairwise (fun m n => c.metMethods.idxOf m < c.metMethods.idxOf n) := by
  have hall : KeepsFirst Method.shape c.metMethods c.allMethods := c.allMethods_keepsFirst
  refine ⟨hall.apart, ?_, fun n hn => (hall.mem_iff n).mp hn, hall.ordered⟩
  intro s hs m hm
  exact hall.exists_first (List.mem_flatMap.mpr ⟨s, hs, hm⟩)

theorem userRepository_overrides : baseRepository ∈ userRepository.walk ∧
    (⟨"BaseRepository", "save", ["Entity"]⟩ : Method) ∈ baseRepository.methods ∧
    userRepository.metMethods.find? (fun k => k.shape = ("save", ["Entity"])) =
      some ⟨"UserRepository", "save", ["Entity"]⟩ ∧
    ∃ n ∈ userRepository.allMethods, n.shape = ("save", ["Entity"]) ∧
      userRepository.metMethods.find? (fun k => k.shape = ("save", ["Entity"])) = some n := by
  have hsave : (⟨"BaseRepository", "save", ["Entity"]⟩ : Method) ∈ baseRepository.methods := by decide
  obtain ⟨-, hfirst, hnothing, -⟩ := nearest_declarations_win userRepository
  exact ⟨baseRepository_met, hsave, hnothing ⟨"UserRepository", "save", ["Entity"]⟩ (by decide),
    hfirst _ baseRepository_met _ hsave⟩

example : userRepository.allMethods =
    [⟨"UserRepository", "save", ["Entity"]⟩, ⟨"BaseRepository", "load", []⟩] := by decide

end Class
end Weaving
