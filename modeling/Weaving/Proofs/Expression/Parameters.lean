import Mathlib.Data.List.Forall2
import Mathlib.Data.List.Infix
import Weaving.Expression

/-! Parameter patterns against parameter types. The answers that are worked out for a list of types have
those for its tails behind them, so that patterns are matched one after the other. So the patterns accept
the types just if these can be cut into blocks, one for each pattern. -/
namespace Weaving

variable {p a : String} {ps actual : List String}

theorem length_trueFrom (row : List Bool) : (trueFrom row).length = row.length := by
  induction row with
  | nil => rfl
  | cons b row ih => simpa [trueFrom] using ih

theorem tail_trueFrom (row : List Bool) : (trueFrom row).tail = trueFrom row.tail := by
  cases row <;> rfl

theorem length_paramsFit (actual ps : List String) :
    (paramsFit actual ps).length = actual.length + 1 := by
  induction ps with
  | nil => simp [paramsFit]
  | cons p ps ih =>
    by_cases hp : p = ".."
    · simp [paramsFit, hp, length_trueFrom, ih]
    · simp [paramsFit, hp, ih]

/-- Behind the answer for all types stand the answers for those after the first. -/
theorem tail_paramsFit (a : String) (actual ps : List String) :
    (paramsFit (a :: actual) ps).tail = paramsFit actual ps := by
  induction ps with
  | nil => rfl
  | cons p ps ih =>
    by_cases hp : p = ".."
    · simp [paramsFit, hp, tail_trueFrom, ih]
    · obtain ⟨b, row, hrow⟩ := List.exists_cons_of_length_eq_add_one (length_paramsFit actual ps)
      simp [paramsFit, hp, ih, hrow]

theorem paramsAccept_nil : paramsAccept [] actual = actual.isEmpty := by
  cases actual <;> rfl

theorem paramsAccept_cons_nil (hp : p ≠ "..") : paramsAccept (p :: ps) [] = false := by
  simp [paramsAccept, paramsFit, hp]

/-- A pattern other than two dots takes the first type. -/
theorem paramsAccept_cons_cons (hp : p ≠ "..") : paramsAccept (p :: ps) (a :: actual) =
    (Glob.accepts p a && paramsAccept ps actual) := by
  obtain ⟨b, row, hrow⟩ := List.exists_cons_of_length_eq_add_one (length_paramsFit actual ps)
  simp [paramsAccept, paramsFit, hp, tail_paramsFit, hrow]

/-- Two dots leave any tail of the types to the patterns behind them. -/
theorem paramsAccept_dots (ps actual : List String) :
    paramsAccept (".." :: ps) actual = actual.tails.any (paramsAccept ps) := by
  induction actual with
  | nil =>
    obtain ⟨b, hrow⟩ := List.length_eq_one_iff.mp (length_paramsFit [] ps)
    simp [paramsAccept, paramsFit, hrow, trueFrom]
  | cons a actual ih =>
    have htail := tail_paramsFit a actual ps
    obtain ⟨b, row, hrow⟩ := List.exists_cons_of_length_eq_add_one (length_paramsFit (a :: actual) ps)
    rw [hrow, List.tail_cons] at htail
    -- the answer for all types and, behind it, those for the tails that the induction is about
    rw [List.tails_cons, List.any_cons, ← ih]
    simp [paramsAccept, paramsFit, hrow, htail, trueFrom]

/-- Patterns without dots accept as many types, each the one in its place. -/
theorem paramsAccept_iff_forall₂ (hps : ".." ∉ ps) : paramsAccept ps actual = true ↔
    List.Forall₂ (fun p a => Glob.accepts p a = true) ps actual := by
  induction ps generalizing actual with
  | nil => cases actual <;> simp [paramsAccept_nil]
  | cons p ps ih =>
    obtain ⟨hp, hps⟩ := List.ne_and_not_mem_of_not_mem_cons hps
    cases actual with
    | nil => simp [paramsAccept_cons_nil hp.symm]
    | cons a actual => simp [paramsAccept_cons_cons hp.symm, ih hps]

/-- What a pattern stands for: two dots for any types, every other pattern for one type that it accepts. -/
def Takes (p : String) (block : List String) : Prop :=
  if p = ".." then True else ∃ a, block = [a] ∧ Glob.accepts p a = true

@[simp] theorem takes_dots (block : List String) : Takes ".." block := by simp [Takes]

theorem takes_iff (hp : p ≠ "..") {block : List String} :
    Takes p block ↔ ∃ a, block = [a] ∧ Glob.accepts p a = true := by simp [Takes, hp]

/-- The types can be cut into consecutive blocks, one for each pattern in its turn. -/
def Aligned (ps actual : List String) : Prop :=
  ∃ blocks : List (List String), blocks.flatten = actual ∧ List.Forall₂ Takes ps blocks

theorem aligned_nil : Aligned [] actual ↔ actual = [] := by
  simp [Aligned, eq_comm]

theorem aligned_cons : Aligned (p :: ps) actual ↔
    ∃ block rest, block ++ rest = actual ∧ Takes p block ∧ Aligned ps rest := by
  constructor
  · rintro ⟨blocks, rfl, htakes⟩
    obtain ⟨block, blocks, hblock, hblocks, rfl⟩ := List.forall₂_cons_left_iff.mp htakes
    exact ⟨block, blocks.flatten, rfl, hblock, blocks, rfl, hblocks⟩
  · rintro ⟨block, -, rfl, hblock, blocks, rfl, hblocks⟩
    exact ⟨block :: blocks, rfl, .cons hblock hblocks⟩

theorem aligned_dots : Aligned (".." :: ps) actual ↔ ∃ rest, rest <:+ actual ∧ Aligned ps rest := by
  rw [aligned_cons]
  constructor
  · rintro ⟨block, rest, hcut, -, hrest⟩
    exact ⟨rest, ⟨block, hcut⟩, hrest⟩
  · rintro ⟨rest, ⟨block, hcut⟩, hrest⟩
    exact ⟨block, rest, hcut, takes_dots block, hrest⟩

theorem aligned_dots_dots : Aligned (".." :: ".." :: ps) actual ↔ Aligned (".." :: ps) actual := by
  simp only [aligned_dots]
  constructor
  · rintro ⟨rest, hrest, rest', hrest', h⟩
    exact ⟨rest', hrest'.trans hrest, h⟩
  · rintro ⟨rest, hrest, h⟩
    exact ⟨rest, hrest, rest, List.suffix_rfl, h⟩

/-- Patterns that stand for the same types do so behind any others. -/
theorem aligned_append_congr {qs : List String} (h : ∀ actual, Aligned ps actual ↔ Aligned qs actual)
    (before actual : List String) : Aligned (before ++ ps) actual ↔ Aligned (before ++ qs) actual := by
  induction before generalizing actual with
  | nil => exact h actual
  | cons p before ih => simp only [List.cons_append, aligned_cons, ih]

theorem paramsAccept_iff (ps actual : List String) : paramsAccept ps actual = true ↔ Aligned ps actual := by
  induction ps generalizing actual with
  | nil => rw [paramsAccept_nil, List.isEmpty_iff, aligned_nil]
  | cons p ps ih =>
    by_cases hp : p = ".."
    · simp [hp, paramsAccept_dots, aligned_dots, ih, List.mem_tails]
    · rw [aligned_cons]
      cases actual with
      | nil => simp [paramsAccept_cons_nil hp, takes_iff hp]
      | cons a actual => simp [paramsAccept_cons_cons hp, takes_iff hp, ih]

/-- Patterns accept types just if these can be cut into consecutive blocks, one for each pattern in its
turn, where two dots take any block and every other pattern takes one type that it accepts. Hence dots
next to dots count for nothing. -/
theorem paramsAccept_iff_aligned (ps actual : List String) :
    (paramsAccept ps actual = true ↔
      ∃ blocks : List (List String), blocks.flatten = actual ∧ List.Forall₂ Takes ps blocks) ∧
    ∀ before behind : List String, paramsAccept (before ++ ".." :: ".." :: behind) actual =
      paramsAccept (before ++ ".." :: behind) actual := by
  refine ⟨paramsAccept_iff ps actual, fun before behind => ?_⟩
  rw [Bool.eq_iff_iff, paramsAccept_iff, paramsAccept_iff]
  exact aligned_append_congr (fun _ => aligned_dots_dots) before actual

example : paramsAccept ["..", "bool", "..", "u*"] ["User", "bool", "bool", "u64"] = true := by decide

end Weaving
