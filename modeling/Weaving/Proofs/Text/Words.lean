import Mathlib.Data.List.DropRight
import Weaving.Text.Blank
import Weaving.Text.Split

/-! What is left of a text that is trimmed or cut into words or pieces: everything but blanks, or the
separators, in the same order. -/
namespace Weaving.Text

variable {b c d sep : Char} {s t : List Char}

@[simp] theorem words_nil : words [] = [] := rfl

theorem words_cons (c : Char) (s : List Char) : words (c :: s) =
    if isBlank c then words s
    else match s with
      | [] => [[c]]
      | d :: _ =>
        if isBlank d then [c] :: words s
        else match words s with
          | [] => [[c]]
          | w :: ws => (c :: w) :: ws := rfl

theorem words_blank (h : isBlank c = true) (s : List Char) : words (c :: s) = words s := by
  rw [words_cons, if_pos h]

theorem words_singleton (h : isBlank c = false) : words [c] = [[c]] := by simp [words_cons, h]

/-- A character between blanks is a word. -/
theorem words_before_blank (hc : ¬isBlank c = true) (hd : isBlank d = true) (s : List Char) :
    words (c :: d :: s) = [c] :: words s := by
  rw [words_cons, if_neg hc, words_blank hd]
  simp [hd]

/-- A character goes before the word that it is joined to. -/
theorem words_joined (hc : ¬isBlank c = true) (hd : ¬isBlank d = true) {w : List Char}
    {ws : List (List Char)} (hw : words (d :: s) = w :: ws) : words (c :: d :: s) = (c :: w) :: ws := by
  rw [words_cons, if_neg hc, hw]
  simp [hd]

theorem flatten_words (s : List Char) : (words s).flatten = s.filter fun c => !isBlank c := by
  fun_induction words s with
  | case1 => rfl
  | case2 c s hc ih => simp [hc, ih]
  | case3 c hc => simp [hc]
  | case4 c hc d s hd ih => simp [hc, ih]
  | case5 c hc d s hd hs ih =>
    -- the text goes on with a word, so that there is one
    simp [hs, hd] at ih
  | case6 c hc d s hd w ws hs ih =>
    rw [hs] at ih ⊢
    simpa [hc, hd] using ih

theorem words_ne_nil (h : ¬isBlank c = true) (s : List Char) : words (c :: s) ≠ [] := by
  intro hnil
  have hflatten := flatten_words (c :: s)
  simp [hnil, h] at hflatten

/-- A blank parts the words before it from those behind it. -/
theorem words_append_blank (h : isBlank b = true) (s t : List Char) :
    words (s ++ b :: t) = words s ++ words t := by
  fun_induction words s with
  | case1 => exact words_blank h t
  | case2 c s hc ih => rw [List.cons_append, words_blank hc, ih]
  | case3 c hc => exact words_before_blank hc h t
  | case4 c hc d s hd ih =>
    rw [List.cons_append, words_blank hd] at ih
    rw [List.cons_append, List.cons_append, words_before_blank hc hd, ih, List.cons_append]
  | case5 c hc d s hd hs ih => exact absurd hs (words_ne_nil hd s)
  | case6 c hc d s hd w ws hs ih =>
    rw [hs] at ih ⊢
    exact words_joined hc hd ih

/-- What has no blanks is the beginning of a word. -/
theorem words_append (h : ∀ c ∈ s, isBlank c = false) (hs : s ≠ []) (t : List Char) :
    ∃ w ws, words (s ++ t) = (s ++ w) :: ws := by
  induction s with
  | nil => exact absurd rfl hs
  | cons c s ih =>
    have hc : ¬isBlank c = true := by simp [h c (by simp)]
    cases s with
    | nil =>
      cases t with
      | nil => exact ⟨[], [], words_singleton (h c (by simp))⟩
      | cons d t =>
        by_cases hd : isBlank d = true
        · exact ⟨[], _, words_before_blank hc hd t⟩
        · obtain ⟨w, ws, hw⟩ := List.exists_cons_of_ne_nil (words_ne_nil hd t)
          exact ⟨w, ws, words_joined hc hd hw⟩
    | cons d s =>
      obtain ⟨w, ws, hw⟩ := ih (fun e he => h e (List.mem_cons_of_mem _ he)) (by simp)
      exact ⟨w, ws, words_joined hc (by simp [h d (by simp)]) hw⟩

theorem cut_append (h : sep ∉ s) (t : List Char) : cut sep (s ++ sep :: t) = some (s, t) := by
  induction s with
  | nil => simp [cut]
  | cons c s ih =>
    obtain ⟨hc, hs⟩ := List.ne_and_not_mem_of_not_mem_cons h
    simp [cut, hc.symm, ih hs]

theorem cutLast_append (h : sep ∉ t) (s : List Char) : cutLast sep (s ++ sep :: t) = some (s, t) := by
  simp [cutLast, cut_append (s := t.reverse) (by simpa using h)]

theorem not_mem_of_cut_none (h : cut sep s = none) : sep ∉ s := by
  induction s with
  | nil => simp
  | cons c s ih =>
    by_cases hc : c = sep
    · simp [cut, hc] at h
    · have hs : cut sep s = none := by simpa [cut, hc] using h
      simp [Ne.symm hc, ih hs]

/-- The first separator is where a text is cut. -/
theorem not_mem_of_cut {l r : List Char} (h : cut sep s = some (l, r)) : sep ∉ l := by
  induction s generalizing l with
  | nil => simp [cut] at h
  | cons c s ih =>
    by_cases hc : c = sep
    · obtain ⟨rfl, -⟩ : [] = l ∧ s = r := by simpa [cut, hc] using h
      simp
    · obtain ⟨l', hl', rfl⟩ : ∃ l', cut sep s = some (l', r) ∧ c :: l' = l := by
        simpa [cut, hc, and_assoc] using h
      simp [Ne.symm hc, ih hl']

theorem flatten_split (sep : Char) (s : List Char) :
    (split sep s).flatten = s.filter fun c => c ≠ sep := by
  induction s with
  | nil => rfl
  | cons c s ih =>
    obtain ⟨piece, pieces, hp⟩ := List.exists_cons_of_ne_nil (split_ne_nil sep s)
    by_cases hc : c = sep
    · simp [split, hc, ih]
    · rw [hp] at ih
      simpa [split, hc, hp] using ih

/-- There is a separator between any two pieces that follow each other. -/
theorem length_split (sep : Char) (s : List Char) : (split sep s).length = s.count sep + 1 := by
  induction s with
  | nil => rfl
  | cons c s ih =>
    obtain ⟨piece, pieces, hp⟩ := List.exists_cons_of_ne_nil (split_ne_nil sep s)
    by_cases hc : c = sep
    · simp [split, hc, ih]
    · rw [List.count_cons_of_ne hc, ← ih, hp]
      simp [split, hc, hp]

theorem count_words (h : isBlank c = false) (s : List Char) : (words s).flatten.count c = s.count c := by
  rw [flatten_words, List.count_filter (by simp [h])]

theorem count_split (h : c ≠ sep) (s : List Char) : (split sep s).flatten.count c = s.count c := by
  rw [flatten_split, List.count_filter (by simp [h])]

/-- Dropping from the front leaves a character as often as it was if it is not among those dropped. -/
theorem count_dropWhile {p : Char → Bool} (h : p c = false) (s : List Char) :
    (s.dropWhile p).count c = s.count c := by
  have hnone : (s.takeWhile p).count c = 0 := by
    refine List.count_eq_zero.mpr fun hc => ?_
    have hp := List.all_eq_true.mp (List.all_takeWhile (p := p) (l := s)) c hc
    rw [h] at hp
    contradiction
  have hs := congrArg (List.count c) (List.takeWhile_append_dropWhile (p := p) (l := s))
  rw [List.count_append, hnone] at hs
  omega

theorem rdropWhile_of_getLast? (h : s.getLast? ≠ some c) : s.rdropWhile (· = c) = s := by
  rw [List.rdropWhile_eq_self_iff]
  intro hne hlast
  rw [List.getLast?_eq_some_getLast hne, of_decide_eq_true hlast] at h
  contradiction

theorem getLast?_rdropWhile (c : Char) (s : List Char) :
    (s.rdropWhile (· = c)).getLast? ≠ some c := by
  intro h
  obtain ⟨t, ht⟩ := List.getLast?_eq_some_iff.mp h
  have hlast := List.rdropWhile_last_not (· = c) s (by simp [ht])
  simp [ht] at hlast

theorem count_trim (h : isBlank c = false) (s : List Char) : (trim s).count c = s.count c := by
  rw [trim, trimRight, List.count_reverse, count_dropWhile h, List.count_reverse, trimLeft,
    count_dropWhile h]

theorem count_intercalate (h : c ∉ t) (ws : List (List Char)) :
    (t.intercalate ws).count c = ws.flatten.count c := by
  induction ws with
  | nil => simp
  | cons w ws ih =>
    cases ws with
    | nil => simp
    | cons v ws =>
      rw [List.intercalate_cons_cons, List.count_append, List.count_append, ih,
        List.count_eq_zero.mpr h, List.flatten_cons (l := w), List.count_append, Nat.add_zero]

end Weaving.Text
