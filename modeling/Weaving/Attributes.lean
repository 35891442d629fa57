import Weaving.Value

/-! User attributes of an invocation: values by name, the latest under each name. -/
namespace Weaving

/-- Named values that advice leaves for advice further on. -/
abbrev Attributes := List (String × Value)

namespace Attributes

def find? (as : Attributes) (key : String) : Option Value := as.lookup key

def remove (as : Attributes) (key : String) : Attributes := as.filter fun a => a.1 != key

def put (as : Attributes) (key : String) (v : Value) : Attributes := (key, v) :: as.remove key

@[simp] theorem find?_nil (key : String) : find? [] key = none := rfl

@[simp] theorem find?_cons (a : String × Value) (as : Attributes) (key : String) :
    find? (a :: as) key = if key = a.1 then some a.2 else find? as key := by
  obtain ⟨k, v⟩ := a
  by_cases h : key = k
  · simp [find?, h]
  · simp [find?, List.lookup_cons, h, beq_false_of_ne h]

theorem find?_remove (as : Attributes) (key other : String) :
    (as.remove key).find? other = if other = key then none else as.find? other := by
  induction as with
  | nil => simp [remove]
  | cons a as ih =>
    by_cases h : a.1 = key
    · simp_all [remove]
    · simp_all [remove]
      grind

@[simp] theorem find?_put (as : Attributes) (key other : String) (v : Value) :
    (as.put key v).find? other = if other = key then some v else as.find? other := by
  simp only [put, find?_cons, find?_remove]
  grind

end Attributes

end Weaving
