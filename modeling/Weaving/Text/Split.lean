/-! Cutting a text at every occurrence of one character, at the first and at the last. -/
namespace Weaving.Text

/-- The pieces between the separators; there is one more piece than there are separators. -/
def split (sep : Char) : List Char → List (List Char)
  | [] => [[]]
  | c :: s =>
    if c = sep then [] :: split sep s
    else match split sep s with
      | [] => [[c]]
      | p :: ps => (c :: p) :: ps

@[simp] theorem split_ne_nil (sep : Char) (s : List Char) : split sep s ≠ [] := by
  cases s with
  | nil => simp [split]
  | cons c s =>
    simp only [split]
    split
    · simp
    · split <;> simp

theorem split_of_not_mem {sep : Char} {s : List Char} (h : sep ∉ s) : split sep s = [s] := by
  induction s with
  | nil => rfl
  | cons c s ih =>
    obtain ⟨hc, hs⟩ := List.ne_and_not_mem_of_not_mem_cons h
    simp [split, hc.symm, ih hs]

/-- What stands before and after the first separator. -/
def cut (sep : Char) : List Char → Option (List Char × List Char)
  | [] => none
  | c :: s => if c = sep then some ([], s) else (cut sep s).map fun p => (c :: p.1, p.2)

theorem eq_append_of_cut {sep : Char} {s l r : List Char} (h : cut sep s = some (l, r)) :
    s = l ++ sep :: r := by
  induction s generalizing l with
  | nil => simp [cut] at h
  | cons c s ih =>
    by_cases hc : c = sep
    · simp only [cut, hc, if_true, Option.some.injEq, Prod.mk.injEq] at h
      simp [hc, ← h.1, ← h.2]
    · simp only [cut, hc, if_false, Option.map_eq_some_iff, Prod.mk.injEq] at h
      obtain ⟨⟨a, b⟩, hab, rfl, rfl⟩ := h
      simp [ih hab]

/-- What stands before and after the last separator. -/
def cutLast (sep : Char) (s : List Char) : Option (List Char × List Char) :=
  (cut sep s.reverse).map fun p => (p.2.reverse, p.1.reverse)

end Weaving.Text
