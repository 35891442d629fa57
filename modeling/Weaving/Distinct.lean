/-! Lists without repetition, grown at the end: an element that is already there is not added. -/
namespace Weaving

variable {α : Type} [DecidableEq α]

def addOnce (xs : List α) (x : α) : List α := if x ∈ xs then xs else xs ++ [x]

def addAll (xs ys : List α) : List α := ys.foldl addOnce xs

/-- The elements in order of first occurrence. -/
def distinct (xs : List α) : List α := addAll [] xs

@[simp] theorem mem_addOnce {xs : List α} {x y : α} : y ∈ addOnce xs x ↔ y ∈ xs ∨ y = x := by
  by_cases h : x ∈ xs <;> simp only [addOnce, h, if_true, if_false, List.mem_append,
    List.mem_singleton]
  exact ⟨.inl, fun hy => hy.elim id fun he => he ▸ h⟩

@[simp] theorem mem_addAll {xs ys : List α} {y : α} : y ∈ addAll xs ys ↔ y ∈ xs ∨ y ∈ ys := by
  induction ys generalizing xs with
  | nil => simp [addAll]
  | cons z ys ih =>
    simp only [addAll, List.foldl_cons] at ih ⊢
    rw [ih]
    simp [or_assoc]

theorem nodup_addOnce {xs : List α} {x : α} (h : xs.Nodup) : (addOnce xs x).Nodup := by
  by_cases hx : x ∈ xs
  · simpa [addOnce, hx] using h
  · simp only [addOnce, hx, if_false]
    exact List.nodup_append.2 ⟨h, by simp, fun a ha b hb => by simp_all; rintro rfl; exact hx ha⟩

theorem nodup_addAll {xs ys : List α} (h : xs.Nodup) : (addAll xs ys).Nodup := by
  induction ys generalizing xs with
  | nil => exact h
  | cons y ys ih => exact ih (nodup_addOnce h)

theorem prefix_addOnce (xs : List α) (x : α) : xs <+: addOnce xs x := by
  by_cases hx : x ∈ xs
  · simp [addOnce, hx]
  · simp [addOnce, hx, List.prefix_append]

theorem prefix_addAll (xs ys : List α) : xs <+: addAll xs ys := by
  induction ys generalizing xs with
  | nil => exact List.prefix_rfl
  | cons y ys ih => exact (prefix_addOnce xs y).trans (ih (addOnce xs y))

theorem addAll_eq_self {xs ys : List α} (h : ∀ y ∈ ys, y ∈ xs) : addAll xs ys = xs := by
  induction ys with
  | nil => rfl
  | cons y ys ih =>
    have hy : addOnce xs y = xs := if_pos (h y (by simp))
    rw [addAll, List.foldl_cons, hy]
    exact ih fun z hz => h z (by simp [hz])

/-- What is added and was not there comes right behind what was. -/
theorem exists_addAll_eq {xs ys : List α} (h : ¬∀ y ∈ ys, y ∈ xs) :
    ∃ z zs, addAll xs ys = xs ++ z :: zs ∧ z ∉ xs := by
  induction ys with
  | nil => simp at h
  | cons y ys ih =>
    by_cases hy : y ∈ xs
    · have hadd : addOnce xs y = xs := if_pos hy
      rw [addAll, List.foldl_cons, hadd]
      exact ih fun hys => h (by simpa [hy] using hys)
    · have hadd : addOnce xs y = xs ++ [y] := if_neg hy
      rw [addAll, List.foldl_cons, hadd]
      obtain ⟨zs, hzs⟩ := prefix_addAll (xs ++ [y]) ys
      exact ⟨y, zs, by rw [← addAll, ← hzs, List.append_assoc, List.singleton_append], hy⟩

@[simp] theorem mem_distinct {xs : List α} {x : α} : x ∈ distinct xs ↔ x ∈ xs := by simp [distinct]

end Weaving
