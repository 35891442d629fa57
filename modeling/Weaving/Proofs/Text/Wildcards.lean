import Weaving.Proofs.Text.Words
import Weaving.Text.Glob

/-! What wildcard patterns stand for. A pattern whose stars have been replaced is its pieces with the
replacements between them. The search takes each piece at its leftmost place and never goes back; nothing
is lost by that, since what follows the leftmost place ends in what follows any other place. -/
namespace Weaving.Glob

/-- A pattern with its stars replaced by texts, from left to right. -/
def fill : List Char → List (List Char) → List Char
  | [], _ => []
  | c :: p, [] => c :: p
  | c :: p, x :: xs => if c = '*' then x ++ fill p xs else c :: fill p (x :: xs)

@[simp] theorem fill_nil (p : List Char) : fill p [] = p := by cases p <;> rfl

@[simp] theorem fill_star (p x : List Char) (xs : List (List Char)) :
    fill ('*' :: p) (x :: xs) = x ++ fill p xs := by simp [fill]

@[simp] theorem fill_empty (xs : List (List Char)) : fill [] xs = [] := by cases xs <;> rfl

theorem fill_literal {c : Char} (h : c ≠ '*') (p : List Char) (xs : List (List Char)) :
    fill (c :: p) xs = c :: fill p xs := by
  cases xs <;> simp [fill, h]

/-- A pattern with its stars replaced by as many texts. -/
def filled (pattern : String) (xs : List String) : String :=
  String.ofList (fill pattern.toList (xs.map String.toList))

/-- Pieces, each with a text before it. -/
def lined (xs pieces : List (List Char)) : List Char := (List.zipWith (· ++ ·) xs pieces).flatten

@[simp] theorem lined_nil (xs : List (List Char)) : lined xs [] = [] := by simp [lined]

@[simp] theorem lined_cons (x p : List Char) (xs ps : List (List Char)) :
    lined (x :: xs) (p :: ps) = x ++ p ++ lined xs ps := by simp [lined]

theorem lined_concat {xs ps : List (List Char)} (h : xs.length = ps.length) (x p : List Char) :
    lined (xs ++ [x]) (ps ++ [p]) = lined xs ps ++ x ++ p := by
  simp [lined, List.zipWith_append h]

section Split

variable {pattern first : List Char} {rest : List (List Char)}

theorem count_of_split (h : Text.split '*' pattern = first :: rest) :
    pattern.count '*' = rest.length := by
  have hlen := Text.length_split '*' pattern
  rw [h, List.length_cons] at hlen
  omega

/-- A pattern whose stars are replaced is its first piece, and then the others behind the texts. -/
theorem fill_of_split (h : Text.split '*' pattern = first :: rest) {xs : List (List Char)}
    (hxs : xs.length = rest.length) : fill pattern xs = first ++ lined xs rest := by
  induction pattern generalizing first rest xs with
  | nil =>
    obtain ⟨rfl, rfl⟩ : [] = first ∧ [] = rest := by simpa [Text.split] using h
    simp [fill]
  | cons c pattern ih =>
    obtain ⟨piece, pieces, hp⟩ := List.exists_cons_of_ne_nil (Text.split_ne_nil '*' pattern)
    by_cases hc : c = '*'
    · obtain ⟨rfl, rfl⟩ : [] = first ∧ piece :: pieces = rest := by
        simpa [Text.split, hc, hp] using h
      cases xs with
      | nil => simp at hxs
      | cons x xs =>
        have hlen : xs.length = pieces.length := by simpa using hxs
        simp [hc, ih hp hlen]
    · obtain ⟨rfl, rfl⟩ : c :: piece = first ∧ pieces = rest := by
        simpa [Text.split, hc, hp] using h
      rw [fill_literal hc, ih hp hxs, List.cons_append]

end Split

section Search

variable {p s t : List Char} {ps : List (List Char)}

theorem after_of_starts (h : p <+: s) : after p s = some (s.drop p.length) := by
  cases s with
  | nil => simp [after, List.prefix_nil.mp h]
  | cons c s => simp [after, h]

theorem after_cons {c : Char} (h : ¬p <+: c :: s) : after p (c :: s) = after p s := by
  simp [after, h]

theorem eq_append_of_after {r : List Char} (h : after p s = some r) : ∃ x, s = x ++ p ++ r := by
  induction s with
  | nil =>
    obtain ⟨rfl, rfl⟩ : p = [] ∧ [] = r := by simpa [after] using h
    exact ⟨[], rfl⟩
  | cons c s ih =>
    by_cases hp : p <+: c :: s
    · obtain ⟨u, hu⟩ := hp
      obtain rfl : u = r := by simpa [after_of_starts, ← hu] using h
      exact ⟨[], hu.symm⟩
    · rw [after_cons hp] at h
      obtain ⟨x, rfl⟩ := ih h
      exact ⟨c :: x, rfl⟩

/-- A piece that occurs is found, and what follows any occurrence is at the end of what follows the
one that is found. -/
theorem after_append (x p r : List Char) : ∃ r', after p (x ++ p ++ r) = some r' ∧ r <:+ r' := by
  induction x with
  | nil => exact ⟨r, by simp [after_of_starts], List.suffix_rfl⟩
  | cons c x ih =>
    by_cases hp : p <+: c :: (x ++ p ++ r)
    · refine ⟨_, after_of_starts hp, ?_⟩
      refine List.suffix_of_suffix_length_le ⟨c :: (x ++ p), by simp⟩ (List.drop_suffix _ _) ?_
      simp only [List.length_drop, List.length_cons, List.length_append]
      omega
    · obtain ⟨r', hr', hsuffix⟩ := ih
      exact ⟨r', (after_cons hp).trans hr', hsuffix⟩

theorem inOrder_cons :
    inOrder (p :: ps) s = true ↔ ∃ r, after p s = some r ∧ inOrder ps r = true := by
  cases h : after p s <;> simp [inOrder, h]

/-- The pieces stand in the text one after the other, with anything before, between and behind them. -/
def Placed (ps : List (List Char)) (s : List Char) : Prop :=
  ∃ xs rest, xs.length = ps.length ∧ s = lined xs ps ++ rest

theorem placed_nil (s : List Char) : Placed [] s := ⟨[], s, rfl, by simp⟩

theorem placed_cons : Placed (p :: ps) s ↔ ∃ x r, s = x ++ p ++ r ∧ Placed ps r := by
  constructor
  · rintro ⟨xs, rest, hlen, rfl⟩
    cases xs with
    | nil => simp at hlen
    | cons x xs => exact ⟨x, _, by simp, xs, rest, by simpa using hlen, rfl⟩
  · rintro ⟨x, r, rfl, xs, rest, hlen, rfl⟩
    exact ⟨x :: xs, rest, by simpa using hlen, by simp⟩

theorem Placed.suffix (h : Placed ps s) (hst : s <:+ t) : Placed ps t := by
  cases ps with
  | nil => exact placed_nil t
  | cons p ps =>
    obtain ⟨y, rfl⟩ := hst
    obtain ⟨x, r, rfl, hr⟩ := placed_cons.mp h
    exact placed_cons.mpr ⟨y ++ x, r, by simp, hr⟩

/-- The search from left to right finds the pieces wherever they stand in order. -/
theorem inOrder_iff : inOrder ps s = true ↔ Placed ps s := by
  induction ps generalizing s with
  | nil => simp [inOrder, placed_nil]
  | cons p ps ih =>
    rw [inOrder_cons, placed_cons]
    constructor
    · rintro ⟨r, ha, hr⟩
      obtain ⟨x, hs⟩ := eq_append_of_after ha
      exact ⟨x, r, hs, ih.mp hr⟩
    · rintro ⟨x, r, rfl, hr⟩
      obtain ⟨r', ha, hsuffix⟩ := after_append x p r
      exact ⟨r', ha, ih.mpr (hr.suffix hsuffix)⟩

end Search

/-- Two texts that fit at the ends without overlap leave the middle between them. -/
theorem ends_iff {first last text : List Char} {P : List Char → Prop} :
    (first.length + last.length ≤ text.length ∧ first <+: text ∧ last <:+ text ∧
      P ((text.drop first.length).take (text.length - first.length - last.length))) ↔
    ∃ middle, text = first ++ middle ++ last ∧ P middle := by
  constructor
  · rintro ⟨hlen, ⟨s, rfl⟩, hlast, hmiddle⟩
    have hfit : last.length ≤ s.length := by simpa using hlen
    obtain ⟨middle, rfl⟩ : last <:+ s :=
      List.suffix_of_suffix_length_le hlast (List.suffix_append first s) hfit
    refine ⟨middle, by simp, ?_⟩
    simpa using hmiddle
  · rintro ⟨middle, rfl, hmiddle⟩
    refine ⟨by simp, ⟨middle ++ last, by simp⟩, List.suffix_append _ _, ?_⟩
    simpa using hmiddle

/-- A pattern with several pieces has the outer two at the ends of a text that it accepts, and the others
in order between them. -/
theorem acceptsChars_of_split {pattern text first last : List Char} {pieces : List (List Char)}
    (h : Text.split '*' pattern = first :: (pieces ++ [last])) :
    acceptsChars pattern text = true ↔
      ∃ middle, text = first ++ middle ++ last ∧ Placed pieces middle := by
  have hlast : (pieces ++ [last]).getLastD [] = last := by simp
  have hinit : (pieces ++ [last]).dropLast = pieces := List.dropLast_concat
  rw [← ends_iff, ← inOrder_iff, acceptsChars, h]
  cases pieces with
  | nil => simp [and_assoc]
  | cons p ps =>
    simp only [List.cons_append] at hlast hinit ⊢
    simp only [hlast, hinit]
    simp [and_assoc]

theorem acceptsChars_iff (pattern text : List Char) : acceptsChars pattern text = true ↔
    ∃ xs, xs.length = pattern.count '*' ∧ fill pattern xs = text := by
  obtain ⟨first, rest, h⟩ := List.exists_cons_of_ne_nil (Text.split_ne_nil '*' pattern)
  rw [count_of_split h]
  obtain rfl | ⟨pieces, last, rfl⟩ := List.eq_nil_or_concat rest
  · simp [acceptsChars, h, fill_of_split h]
  · rw [List.concat_eq_append] at h ⊢
    rw [acceptsChars_of_split h]
    constructor
    · rintro ⟨middle, rfl, xs, x, hlen, rfl⟩
      have hall : (xs ++ [x]).length = (pieces ++ [last]).length := by simpa using hlen
      exact ⟨xs ++ [x], hall, by simp [fill_of_split h hall, lined_concat hlen]⟩
    · rintro ⟨xs, hlen, rfl⟩
      obtain rfl | ⟨ys, y, rfl⟩ := List.eq_nil_or_concat xs
      · simp at hlen
      · rw [List.concat_eq_append] at hlen ⊢
        have hys : ys.length = pieces.length := by simpa using hlen
        rw [fill_of_split h hlen, lined_concat hys]
        exact ⟨lined ys pieces ++ y, by simp, ys, y, hys, rfl⟩

theorem fill_concat {p : List Char} {xs : List (List Char)} (h : xs.length = p.count '*')
    (x : List Char) : fill (p ++ ['*']) (xs ++ [x]) = fill p xs ++ x := by
  induction p generalizing xs with
  | nil =>
    obtain rfl : xs = [] := by simpa using h
    simp
  | cons c p ih =>
    by_cases hc : c = '*'
    · subst hc
      obtain ⟨y, ys, rfl⟩ := List.exists_cons_of_ne_nil (l := xs) (by rintro rfl; simp at h)
      have hys : ys.length = p.count '*' := by simpa using h
      simp [ih hys]
    · rw [List.count_cons_of_ne hc] at h
      rw [List.cons_append, fill_literal hc, fill_literal hc, ih h, List.cons_append]

/-- A star stands for itself among other things. -/
theorem fill_stars (p : List Char) : fill p (List.replicate (p.count '*') ['*']) = p := by
  induction p with
  | nil => rfl
  | cons c p ih =>
    by_cases hc : c = '*'
    · simp [hc, List.replicate_succ, ih]
    · rw [List.count_cons_of_ne hc, fill_literal hc, ih]

theorem acceptsChars_self (p : List Char) : acceptsChars p p = true :=
  (acceptsChars_iff p p).mpr ⟨_, by simp, fill_stars p⟩

theorem accepts_self (p : String) : accepts p p = true := acceptsChars_self p.toList

/-- What a pattern stands for ends as the pattern does, unless the pattern ends in a star. -/
theorem getLast?_fill {p : List Char} (h : p.getLast? ≠ some '*') (xs : List (List Char)) :
    (fill p xs).getLast? = p.getLast? := by
  induction p generalizing xs with
  | nil => simp
  | cons c p ih =>
    cases p with
    | nil =>
      have hc : c ≠ '*' := by simpa using h
      simp [fill_literal hc]
    | cons d p =>
      rw [List.getLast?_cons_cons] at h ⊢
      have hfill (ys : List (List Char)) : fill (d :: p) ys ≠ [] := by
        intro hnil
        have hend := ih h ys
        simp [hnil, eq_comm] at hend
      cases xs with
      | nil => simp
      | cons x xs =>
        by_cases hc : c = '*'
        · rw [hc, fill_star, List.getLast?_append_of_ne_nil _ (hfill xs), ih h]
        · obtain ⟨e, s, hs⟩ := List.exists_cons_of_ne_nil (hfill (x :: xs))
          rw [fill_literal hc, ← ih h (x :: xs), hs, List.getLast?_cons_cons]

/-- A pattern accepts itself with something behind that ends in another character if and only if it ends in a
star. -/
theorem acceptsChars_append_iff {p s : List Char} (hs : s ≠ []) (hlast : p.getLast? ≠ s.getLast?) :
    acceptsChars p (p ++ s) = true ↔ p.getLast? = some '*' := by
  rw [acceptsChars_iff]
  constructor
  · rintro ⟨xs, -, hfill⟩
    by_contra hstar
    apply hlast
    rw [← getLast?_fill hstar xs, hfill, List.getLast?_append_of_ne_nil _ hs]
  · intro hstar
    obtain ⟨q, rfl⟩ := List.getLast?_eq_some_iff.mp hstar
    refine ⟨List.replicate (q.count '*') ['*'] ++ ['*' :: s], by simp, ?_⟩
    rw [fill_concat (by simp), fill_stars]
    simp

/-- A text that does not end in a character, unless a star stands before all of these at its end. -/
def Spared (c : Char) (s : List Char) : Prop :=
  s.getLast? = some c → (s.rdropWhile (· = c)).getLast? = some '*'

instance (c : Char) (s : List Char) : Decidable (Spared c s) := inferInstanceAs (Decidable (_ → _))

/-- A text without some character at its end accepts the text itself as a pattern if and only if there was
no such character or a star makes up for it. -/
theorem acceptsChars_rdropWhile_iff {c : Char} (s : List Char) :
    acceptsChars (s.rdropWhile (· = c)) s = true ↔ Spared c s := by
  by_cases hlast : s.getLast? = some c
  · have hparts := List.rdropWhile_append_rtakeWhile (p := (· = c)) (l := s)
    have htail : (s.rtakeWhile (· = c)).getLast? = some c := by
      obtain ⟨t, rfl⟩ := List.getLast?_eq_some_iff.mp hlast
      rw [List.rtakeWhile_concat_pos _ _ _ (by simp), List.getLast?_concat]
    have hne : s.rtakeWhile (· = c) ≠ [] := by
      intro hnil
      simp [hnil] at htail
    have hiff := acceptsChars_append_iff hne (htail ▸ Text.getLast?_rdropWhile c s)
    rw [hparts] at hiff
    simp [hiff, Spared, hlast]
  · simp [Spared, hlast, Text.rdropWhile_of_getLast? hlast, acceptsChars_self]

/-- A pattern accepts exactly the texts that are obtained from it by replacing each of its stars by some
text, which may be empty and differ from star to star. -/
theorem accepts_iff_exists_filled (pattern text : String) : accepts pattern text = true ↔
    ∃ xs : List String, xs.length = pattern.toList.count '*' ∧ filled pattern xs = text := by
  rw [accepts, acceptsChars_iff]
  constructor
  · rintro ⟨xs, hlen, hfill⟩
    refine ⟨xs.map String.ofList, by simpa using hlen, ?_⟩
    simp [filled, Function.comp_def, hfill]
  · rintro ⟨xs, hlen, rfl⟩
    exact ⟨xs.map String.toList, by simpa using hlen, by simp [filled]⟩

example : filled "a*b*c" ["-", ""] = "a-bc" := by rfl

end Weaving.Glob
