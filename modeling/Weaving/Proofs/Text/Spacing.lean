import Weaving.Proofs.Text.Words

/-! Texts with one space between their words. Cutting such a text into pieces, or dropping a character at
its end, comes to the same as doing so with any text of the same words and spacing the result. -/
namespace Weaving.Text

variable {c d sep : Char} {s t p : List Char} {ps : List (List Char)}

theorem intercalate_append {ss ts : List (List Char)} (hs : ss ≠ []) (ht : ts ≠ []) (t : List Char) :
    t.intercalate (ss ++ ts) = t.intercalate ss ++ t ++ t.intercalate ts := by
  induction ss with
  | nil => contradiction
  | cons s ss ih =>
    cases ss with
    | nil =>
      obtain ⟨u, us, rfl⟩ := List.exists_cons_of_ne_nil ht
      simp [List.intercalate_cons_cons]
    | cons r ss =>
      rw [List.cons_append, List.cons_append, List.intercalate_cons_cons, ← List.cons_append, ih (by simp)]
      simp [List.intercalate_cons_cons]

theorem mem_of_mem_intercalate {ss : List (List Char)} (h : c ∈ t.intercalate ss) :
    c ∈ t ∨ ∃ s ∈ ss, c ∈ s := by
  induction ss with
  | nil => simp at h
  | cons s ss ih =>
    cases ss with
    | nil => exact .inr ⟨s, by simp, by simpa using h⟩
    | cons r ss =>
      rw [List.intercalate_cons_cons, List.mem_append, List.mem_append] at h
      obtain (hs | ht) | hss := h
      · exact .inr ⟨s, by simp, hs⟩
      · exact .inl ht
      · exact (ih hss).imp_right fun ⟨u, hu, hc⟩ => ⟨u, List.mem_cons_of_mem _ hu, hc⟩

theorem mem_intercalate_of_mem {ss : List (List Char)} (hs : s ∈ ss) (hc : c ∈ s) (t : List Char) :
    c ∈ t.intercalate ss := by
  induction ss with
  | nil => simp at hs
  | cons r ss ih =>
    cases ss with
    | nil =>
      obtain rfl := List.mem_singleton.mp hs
      simpa using hc
    | cons q ss =>
      rw [List.intercalate_cons_cons, List.mem_append]
      obtain rfl | hs := List.mem_cons.mp hs
      · exact .inl (List.mem_append_left _ hc)
      · exact .inr (ih hs)

/-- The words of a text with one space between them. -/
def tidy (s : List Char) : List Char := [' '].intercalate (words s)

@[simp] theorem tidy_nil : tidy [] = [] := rfl

theorem count_tidy (h : isBlank c = false) (s : List Char) : (tidy s).count c = s.count c := by
  have hspace : c ∉ [' '] := by
    rw [List.mem_singleton]
    rintro rfl
    contradiction
  rw [tidy, count_intercalate hspace, count_words h]

theorem mem_tidy (h : isBlank c = false) : c ∈ tidy s ↔ c ∈ s := by
  rw [← List.count_pos_iff, count_tidy h, List.count_pos_iff]

theorem tidy_blank (h : isBlank c = true) (s : List Char) : tidy (c :: s) = tidy s := by
  rw [tidy, words_blank h, tidy]

theorem tidy_append_of_blank (h : ∀ c ∈ s, isBlank c = true) (t : List Char) :
    tidy (s ++ t) = tidy t := by
  induction s with
  | nil => rfl
  | cons c s ih =>
    rw [List.cons_append, tidy_blank (h c (by simp)), ih fun d hd => h d (List.mem_cons_of_mem _ hd)]

/-- The space that is left between something and the words of a text behind it. -/
def gap (s : List Char) : List Char := if s.head?.any isBlank ∧ words s ≠ [] then [' '] else []

theorem gap_blank : ∀ c ∈ gap s, isBlank c = true := by
  intro c hc
  unfold gap at hc
  split at hc
  · obtain rfl := List.mem_singleton.mp hc
    decide
  · simp at hc

theorem tidy_cons (h : isBlank c = false) (s : List Char) : tidy (c :: s) = c :: (gap s ++ tidy s) := by
  have hc : ¬isBlank c = true := by simp [h]
  cases s with
  | nil => simp [tidy, gap, words_singleton h]
  | cons d s =>
    by_cases hd : isBlank d = true
    · have hwords : words (c :: d :: s) = [c] :: words (d :: s) := by
        rw [words_before_blank hc hd, words_blank hd]
      cases hs : words (d :: s) with
      | nil => simp [tidy, gap, hwords, hs]
      | cons w ws => simp [tidy, gap, hwords, hs, hd, List.intercalate_cons_cons]
    · obtain ⟨w, ws, hs⟩ := List.exists_cons_of_ne_nil (words_ne_nil hd s)
      rw [tidy, words_joined hc hd hs, tidy, hs]
      cases ws <;> simp [gap, hd, List.intercalate_cons_cons]

theorem words_eq_nil_iff : words s = [] ↔ ∀ c ∈ s, isBlank c = true := by
  induction s with
  | nil => simp
  | cons c s ih =>
    by_cases h : isBlank c = true
    · simp [words_blank h, ih, h]
    · simp [words_ne_nil h, h]

theorem tidy_eq_nil_iff : tidy s = [] ↔ words s = [] := by
  induction s with
  | nil => simp
  | cons c s ih =>
    by_cases h : isBlank c = true
    · rw [tidy_blank h, words_blank h, ih]
    · simp [tidy_cons (by simpa using h), words_ne_nil h]

theorem head?_tidy (s : List Char) : ∀ c ∈ (tidy s).head?, isBlank c = false := by
  induction s with
  | nil => simp
  | cons c s ih =>
    by_cases h : isBlank c = true
    · rwa [tidy_blank h]
    · rw [tidy_cons (by simpa using h)]
      simpa using h

/-- A text without blanks is its only word. -/
theorem tidy_of_solid (h : ∀ c ∈ s, isBlank c = false) : tidy s = s := by
  induction s with
  | nil => rfl
  | cons c s ih =>
    have hs : gap s = [] := by
      cases s with
      | nil => rfl
      | cons d s => simp [gap, h d (by simp)]
    rw [tidy_cons (h c (by simp)), hs, ih fun d hd => h d (List.mem_cons_of_mem _ hd), List.nil_append]

/-- What has no blanks stays as it is in front of a text. -/
theorem tidy_append (h : ∀ c ∈ s, isBlank c = false) (hs : s ≠ []) (t : List Char) :
    tidy (s ++ t) = s ++ (gap t ++ tidy t) := by
  induction s with
  | nil => exact absurd rfl hs
  | cons c s ih =>
    rw [List.cons_append, tidy_cons (h c (by simp))]
    cases s with
    | nil => rfl
    | cons d s =>
      have hgap : gap (d :: s ++ t) = [] := by simp [gap, h d (by simp)]
      rw [hgap, ih (fun e he => h e (List.mem_cons_of_mem _ he)) (by simp)]
      rfl

section Trim

@[simp] theorem trim_nil : trim [] = [] := rfl

theorem trim_cons (h : isBlank c = false) (s : List Char) : trim (c :: s) = trimRight (c :: s) := by
  simp [trim, trimLeft, h]

theorem trimRight_append (h : trimRight t ≠ []) (s : List Char) :
    trimRight (s ++ t) = s ++ trimRight t := by
  have hdrop : t.reverse.dropWhile isBlank ≠ [] := by simpa [trimRight] using h
  simp [trimRight, List.dropWhile_append, hdrop]

theorem trimRight_eq_nil_iff : trimRight s = [] ↔ ∀ c ∈ s, isBlank c = true := by
  simp [trimRight, List.dropWhile_eq_nil_iff]

theorem trimRight_singleton (h : isBlank c = false) : trimRight [c] = [c] := by
  simp [trimRight, h]

theorem trimRight_append_blank (h : ∀ c ∈ t, isBlank c = true) (s : List Char) :
    trimRight (s ++ t) = trimRight s := by
  rw [trimRight, List.reverse_append, List.dropWhile_append_of_pos (by simpa using h), trimRight]

theorem trim_append_blank (h : ∀ c ∈ s, isBlank c = true) (t : List Char) : trim (s ++ t) = trim t := by
  rw [trim, trimLeft, List.dropWhile_append_of_pos h, trim, trimLeft]

/-- A text that begins with no blank is trimmed at its end only. -/
theorem trim_of_head? (h : ∀ c ∈ s.head?, isBlank c = false) : trim s = trimRight s := by
  cases s with
  | nil => rfl
  | cons c s => exact trim_cons (h c rfl) s

theorem trimRight_cons (h : isBlank c = false) (s : List Char) :
    trimRight (c :: s) = c :: trimRight s := by
  by_cases hs : trimRight s = []
  · rw [hs, ← List.singleton_append, trimRight_append_blank (trimRight_eq_nil_iff.mp hs),
      trimRight_singleton h]
  · exact trimRight_append (s := [c]) hs

end Trim

theorem trimRight_tidy (s : List Char) : trimRight (tidy s) = tidy s := by
  induction s with
  | nil => rfl
  | cons c s ih =>
    by_cases h : isBlank c = true
    · rwa [tidy_blank h]
    · have hc : isBlank c = false := by simpa using h
      rw [tidy_cons hc, trimRight_cons hc]
      by_cases hs : tidy s = []
      · rw [hs, List.append_nil, trimRight_eq_nil_iff.mpr gap_blank]
        simp [gap, tidy_eq_nil_iff.mp hs]
      · rw [trimRight_append (by rwa [ih]), ih]

@[simp] theorem trim_tidy (s : List Char) : trim (tidy s) = tidy s := by
  rw [trim_of_head? (head?_tidy s), trimRight_tidy]

theorem split_append (h : sep ∉ s) (ht : split sep t = p :: ps) :
    split sep (s ++ t) = (s ++ p) :: ps := by
  induction s with
  | nil => exact ht
  | cons c s ih =>
    obtain ⟨hc, hs⟩ := List.ne_and_not_mem_of_not_mem_cons h
    simp [split, hc.symm, ih hs]

theorem split_append_sep (sep : Char) (s t : List Char) :
    split sep (s ++ sep :: t) = split sep s ++ split sep t := by
  induction s with
  | nil => simp [split]
  | cons c s ih =>
    obtain ⟨p, ps, hp⟩ := List.exists_cons_of_ne_nil (split_ne_nil sep s)
    by_cases hc : c = sep
    · simp [split, hc, ih]
    · simp [split, hc, ih, hp]

theorem split_intercalate {ss : List (List Char)} (hne : ss ≠ []) (h : ∀ s ∈ ss, sep ∉ s) :
    split sep ([sep].intercalate ss) = ss := by
  induction ss with
  | nil => contradiction
  | cons s ss ih =>
    have hs : split sep s = [s] := split_of_not_mem (h s (by simp))
    cases ss with
    | nil => simpa using hs
    | cons r ss =>
      rw [List.intercalate_cons_cons, List.append_assoc, List.singleton_append, split_append_sep, hs,
        ih (by simp) fun t ht => h t (List.mem_cons_of_mem _ ht), List.singleton_append]

theorem intercalate_split (sep : Char) (s : List Char) : [sep].intercalate (split sep s) = s := by
  induction s with
  | nil => rfl
  | cons c s ih =>
    obtain ⟨p, ps, hp⟩ := List.exists_cons_of_ne_nil (split_ne_nil sep s)
    rw [hp] at ih
    by_cases hc : c = sep
    · simp [split, hc, hp, List.intercalate_cons_cons, ih]
    · cases ps with
      | nil => simpa [split, hc, hp] using ih
      | cons q ps => simpa [split, hc, hp, List.intercalate_cons_cons] using ih

theorem head?_of_split (h : split sep s = p :: ps) : ∀ c ∈ p.head?, s.head? = some c := by
  intro c hc
  cases s with
  | nil =>
    obtain ⟨rfl, -⟩ : [] = p ∧ [] = ps := by simpa [split] using h
    simp at hc
  | cons d s =>
    obtain ⟨q, qs, hq⟩ := List.exists_cons_of_ne_nil (split_ne_nil sep s)
    by_cases hd : d = sep
    · obtain ⟨rfl, -⟩ : [] = p ∧ q :: qs = ps := by simpa [split, hd, hq] using h
      simp at hc
    · obtain ⟨rfl, -⟩ : d :: q = p ∧ qs = ps := by simpa [split, hd, hq] using h
      simpa using hc

/-- The gap before a text is that before its first piece, if there is a word in the piece. -/
theorem gap_of_split (hs : split sep s = p :: ps) (hp : words p ≠ []) : gap s = gap p := by
  have hhead : s.head? = p.head? := by
    cases p with
    | nil => contradiction
    | cons c p => exact head?_of_split hs c rfl
  have hwords : words s ≠ [] := by
    intro hnil
    refine hp (words_eq_nil_iff.mpr fun c hc => words_eq_nil_iff.mp hnil c ?_)
    have hmem : c ∈ (split sep s).flatten := by simp [hs, hc]
    rw [flatten_split] at hmem
    exact List.mem_of_mem_filter hmem
  simp [gap, hhead, hwords, hp]

/-- A character in front of a text is joined to the first piece in the same way, before the words are spaced and
after. -/
theorem trim_cons_piece {q : List Char} {qs : List (List Char)} (hc : isBlank c = false)
    (hp : split sep s = p :: ps) (hq : split sep (tidy s) = q :: qs) (hfirst : trim q = tidy p) :
    trim (c :: (gap s ++ q)) = tidy (c :: p) := by
  have hq' : trimRight q = tidy p := by
    rw [← trim_of_head?, hfirst]
    intro d hd
    exact head?_tidy s d (head?_of_split hq d hd)
  rw [trim_cons hc, trimRight_cons hc, tidy_cons hc]
  by_cases hnil : words p = []
  · rw [tidy_eq_nil_iff.mpr hnil, trimRight_eq_nil_iff] at hq'
    rw [trimRight_append_blank hq', trimRight_eq_nil_iff.mpr gap_blank, tidy_eq_nil_iff.mpr hnil]
    simp [gap, hnil]
  · have hne : trimRight q ≠ [] := by rwa [hq', ne_eq, tidy_eq_nil_iff]
    rw [trimRight_append hne, hq', gap_of_split hp hnil]

/-- Cutting a text with one space between its words gives the pieces of the text with one space between
theirs, but for blanks at their ends. -/
theorem split_tidy (h : isBlank sep = false) (s : List Char) :
    (split sep (tidy s)).map trim = (split sep s).map tidy := by
  have hgap (t : List Char) : sep ∉ gap t := fun hmem => by simp [gap_blank sep hmem] at h
  induction s with
  | nil => rfl
  | cons c s ih =>
    obtain ⟨p, ps, hp⟩ := List.exists_cons_of_ne_nil (split_ne_nil sep s)
    obtain ⟨q, qs, hq⟩ := List.exists_cons_of_ne_nil (split_ne_nil sep (tidy s))
    obtain ⟨hfirst, hothers⟩ : trim q = tidy p ∧ qs.map trim = ps.map tidy := by
      simpa [hp, hq] using ih
    have hbehind : split sep (gap s ++ tidy s) = (gap s ++ q) :: qs := split_append (hgap s) hq
    by_cases hc : isBlank c = true
    · have hne : c ≠ sep := by
        rintro rfl
        simp [h] at hc
      simp [tidy_blank hc, split, hne, hp, hq, hfirst, hothers]
    · have hc : isBlank c = false := by simpa using hc
      by_cases hsep : c = sep
      · subst hsep
        rw [tidy_cons hc]
        simp [split, hp, hbehind, trim_append_blank gap_blank, hfirst, hothers]
      · simp [tidy_cons hc, split, hsep, hp, hbehind, trim_cons_piece hc hp hq hfirst, hothers]

/-- What is joined to the last word of a text stays joined to it. -/
theorem tidy_concat (h : isBlank c = false) (hlast : ∀ d ∈ s.getLast?, isBlank d = false) :
    tidy (s ++ [c]) = tidy s ++ [c] := by
  induction s with
  | nil => exact tidy_of_solid (by simpa using h)
  | cons d s ih =>
    cases s with
    | nil =>
      have hd : isBlank d = false := hlast d rfl
      rw [tidy_of_solid (s := [d]) (by simpa using hd)]
      exact tidy_of_solid (by simp [h, hd])
    | cons e s =>
      rw [List.getLast?_cons_cons] at hlast
      rw [List.cons_append]
      by_cases hd : isBlank d = true
      · rw [tidy_blank hd, tidy_blank hd, ih hlast]
      · have hd : isBlank d = false := by simpa using hd
        have hwords : words (e :: s) ≠ [] := by
          intro hnil
          have hend := List.getLast?_eq_some_getLast (List.cons_ne_nil e s)
          have hblank := words_eq_nil_iff.mp hnil _ (List.getLast_mem (List.cons_ne_nil e s))
          simp [hlast _ hend] at hblank
        have hwords' : words (e :: (s ++ [c])) ≠ [] := by
          intro hnil
          simp [words_eq_nil_iff.mp hnil c (by simp)] at h
        have hgap : gap (e :: s ++ [c]) = gap (e :: s) := by simp [gap, hwords, hwords']
        rw [tidy_cons hd, tidy_cons hd, ih hlast, hgap]
        simp

/-- What stands behind a blank is parted by one space from the words before it. -/
theorem tidy_concat_blank (hd : isBlank d = true) (h : isBlank c = false) (s : List Char) :
    tidy (s ++ [d] ++ [c]) = tidy s ++ (if words s = [] then [] else [' ']) ++ [c] := by
  have hwords : words (s ++ [d] ++ [c]) = words s ++ [[c]] := by
    rw [List.append_assoc, List.singleton_append, words_append_blank hd, words_singleton h]
  rw [tidy, hwords, tidy]
  by_cases hs : words s = []
  · simp [hs]
  · rw [intercalate_append hs (by simp)]
    simp [hs]

theorem tidy_append_blank (hd : isBlank d = true) (s : List Char) : tidy (s ++ [d]) = tidy s := by
  rw [tidy, words_append_blank hd]
  simp [tidy]

/-- No character is dropped behind the space that is left of a blank, but for the space. -/
theorem trim_rdropWhile_concat_space (h : isBlank c = false) (s : List Char) :
    trim ((tidy s ++ if words s = [] then [] else [' ']).rdropWhile (· = c)) = tidy s := by
  by_cases hs : words s = []
  · simp [hs, tidy_eq_nil_iff.mpr hs]
  · have hspace : ' ' ≠ c := by
      rintro rfl
      simp [show isBlank ' ' = true from rfl] at h
    have hhead : ∀ d ∈ (tidy s ++ [' ']).head?, isBlank d = false := by
      rw [List.head?_append_of_ne_nil _ (by rwa [ne_eq, tidy_eq_nil_iff])]
      exact head?_tidy s
    rw [if_neg hs, List.rdropWhile_concat_neg _ _ _ (by simpa using hspace), trim_of_head? hhead,
      trimRight_append_blank (List.forall_mem_singleton.mpr (by decide)), trimRight_tidy]

/-- Dropping a character at the end of a text with one space between its words comes to dropping it at the
end of the text, but for a blank that is laid bare. -/
theorem trim_rdropWhile_tidy (h : isBlank c = false) (hlast : ∀ d ∈ s.getLast?, isBlank d = false) :
    trim ((tidy s).rdropWhile (· = c)) = tidy (s.rdropWhile (· = c)) := by
  induction s using List.reverseRecOn with
  | nil => rfl
  | append_singleton s d ih =>
    have hd : isBlank d = false := hlast d (by simp)
    -- the character is joined to the last word or parted from it, and is then the only one to be dropped
    obtain ⟨a, hend, hdrop⟩ : ∃ a, tidy (s ++ [d]) = tidy s ++ a ++ [d] ∧
        trim ((tidy s ++ a).rdropWhile (· = c)) = tidy (s.rdropWhile (· = c)) := by
      by_cases hs : ∀ e ∈ s.getLast?, isBlank e = false
      · exact ⟨[], by simpa using tidy_concat hd hs, by simpa using ih hs⟩
      · obtain ⟨e, he, hblank⟩ : ∃ e, s.getLast? = some e ∧ isBlank e = true := by simpa using hs
        obtain ⟨t, rfl⟩ := List.getLast?_eq_some_iff.mp he
        have hkept : (t ++ [e]).rdropWhile (· = c) = t ++ [e] := by
          refine List.rdropWhile_concat_neg _ _ _ fun hec => ?_
          rw [← of_decide_eq_true hec, hblank] at h
          contradiction
        refine ⟨_, by rw [tidy_concat_blank hblank hd, tidy_append_blank hblank], ?_⟩
        rw [hkept, tidy_append_blank hblank]
        exact trim_rdropWhile_concat_space h t
    by_cases hdc : d = c
    · subst hdc
      rw [List.rdropWhile_concat_pos _ _ _ (by simp), hend, List.rdropWhile_concat_pos _ _ _ (by simp),
        hdrop]
    · rw [List.rdropWhile_concat_neg _ _ _ (by simpa using hdc), hend,
        List.rdropWhile_concat_neg _ _ _ (by simpa using hdc), ← hend, trim_tidy]

end Weaving.Text
