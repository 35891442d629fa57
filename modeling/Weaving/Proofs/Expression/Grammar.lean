import Weaving.Expression.Parser

/-! The grammar of pointcut expressions. A phrase is a text together with the expression that it stands for;
disjunctions are made of conjunctions and these of unary phrases, both from left to right, and blanks may
stand before every token. The leaves are designators, whose body is any text with balanced parentheses. -/
namespace Weaving.Expression

def Blank (s : List Char) : Prop := ∀ c ∈ s, Text.isBlank c = true

/-- A text that closes a number of parentheses more than it opens, but no prefix of which closes more. -/
structure Closing (depth : Nat) (s : List Char) : Prop where
  prefixes : ∀ p, p <+: s → p.count ')' ≤ depth + p.count '('
  total : s.count ')' = depth + s.count '('

/-- A text in which every parenthesis has its counterpart. -/
abbrev Balanced (s : List Char) : Prop := Closing 0 s

/-- The designators, with the expressions for their bodies. -/
inductive Designates : List Char → List Char → Expression → Prop
  | execution (body : List Char) :
      Designates "execution".toList body (ofExecution (String.ofList body))
  | within (body : List Char) :
      Designates "within".toList body (type ⟨String.ofList (Text.trim body)⟩)
  | method (body : List Char) :
      Designates "method".toList body (method (String.ofList (Text.trim body)))

inductive Level
  | disjunction
  | conjunction
  | unary

/-- The phrases of each level. A name goes as far as it can, since no blank and no parenthesis belongs to
a name. -/
inductive Phrase : Level → List Char → Expression → Prop
  | not {w s : List Char} {e : Expression} (blank : Blank w) (inner : Phrase .unary s e) :
      Phrase .unary (w ++ '!' :: s) (not e)
  | group {w s v : List Char} {e : Expression} (before : Blank w) (inner : Phrase .disjunction s e)
      (after : Blank v) : Phrase .unary (w ++ '(' :: (s ++ (v ++ [')']))) e
  | designator {w name v body : List Char} {e : Expression} (before : Blank w) (nonempty : name ≠ [])
      (nameChars : ∀ c ∈ name, Text.isNameChar c = true) (after : Blank v) (balanced : Balanced body)
      (designates : Designates name body e) :
      Phrase .unary (w ++ (name ++ (v ++ '(' :: (body ++ [')'])))) e
  | unary {s : List Char} {e : Expression} (inner : Phrase .unary s e) : Phrase .conjunction s e
  | and {s w t : List Char} {e f : Expression} (left : Phrase .conjunction s e) (blank : Blank w)
      (right : Phrase .unary t f) : Phrase .conjunction (s ++ (w ++ '&' :: '&' :: t)) (and e f)
  | conjunction {s : List Char} {e : Expression} (inner : Phrase .conjunction s e) :
      Phrase .disjunction s e
  | or {s w t : List Char} {e f : Expression} (left : Phrase .disjunction s e) (blank : Blank w)
      (right : Phrase .conjunction t f) : Phrase .disjunction (s ++ (w ++ '|' :: '|' :: t)) (or e f)

/-- A whole text that stands for an expression; blanks may follow. -/
def Denotes (s : List Char) (e : Expression) : Prop :=
  ∃ t w, s = t ++ w ∧ Phrase .disjunction t e ∧ Blank w

variable {c d : Char} {token w s r body name : List Char} {depth : Nat} {e : Expression}

instance : Decidable (Blank s) := List.decidableBAll _ s

theorem blank_nil : Blank [] := by simp [Blank]

theorem not_isNameChar_of_isBlank (h : Text.isBlank c = true) : Text.isNameChar c = false := by
  let blanks : List Nat := [9, 10, 11, 12, 13, 32, 0x85, 0xa0, 0x1680, 0x2000, 0x2001, 0x2002, 0x2003,
    0x2004, 0x2005, 0x2006, 0x2007, 0x2008, 0x2009, 0x200a, 0x2028, 0x2029, 0x202f, 0x205f, 0x3000]
  have hmem : c.toNat ∈ blanks := by
    simp only [Text.isBlank, Bool.or_eq_true, Bool.and_eq_true, decide_eq_true_eq] at h
    simp only [blanks, List.mem_cons, List.not_mem_nil]
    omega
  have hnone : ∀ n ∈ blanks, Text.isNameChar (Char.ofNat n) = false := by decide +kernel
  rw [← Char.ofNat_toNat c]
  exact hnone _ hmem

theorem isBlank_eq_false_of_isNameChar (h : Text.isNameChar c = true) : Text.isBlank c = false := by
  cases hb : Text.isBlank c with
  | false => rfl
  | true =>
    rw [not_isNameChar_of_isBlank hb] at h
    contradiction

/-- A text is some blanks and what is left of it when it is trimmed. -/
theorem exists_blank (s : List Char) : ∃ w, Blank w ∧ s = w ++ Text.trimLeft s :=
  ⟨s.takeWhile Text.isBlank, List.all_eq_true.mp List.all_takeWhile,
    List.takeWhile_append_dropWhile.symm⟩

theorem trimLeft_append (hw : Blank w) (s : List Char) : Text.trimLeft (w ++ s) = Text.trimLeft s :=
  List.dropWhile_append_of_pos hw

theorem trimLeft_cons (hc : Text.isBlank c = false) (s : List Char) :
    Text.trimLeft (c :: s) = c :: s := by
  simp [Text.trimLeft, hc]

theorem trimLeft_eq_nil (hw : Blank w) : Text.trimLeft w = [] := by
  rw [← List.append_nil w, trimLeft_append hw]
  rfl

theorem trimLeft_of_afterToken (h : afterToken token s = some r) : Text.trimLeft s = token ++ r := by
  unfold afterToken at h
  split at h
  next hprefix =>
    obtain ⟨u, hu⟩ := List.isPrefixOf_iff_prefix.mp hprefix
    rw [← hu, List.drop_left] at h
    cases h
    exact hu.symm
  next => contradiction

theorem suffix_of_afterToken (h : afterToken token s = some r) : r <:+ s := by
  have hr : r <:+ Text.trimLeft s := trimLeft_of_afterToken h ▸ List.suffix_append _ _
  exact hr.trans (List.dropWhile_suffix _)

/-- A token comes next if the text goes on with it after some blanks. -/
theorem afterToken_eq_some (hc : Text.isBlank c = false) :
    afterToken (c :: token) s = some r ↔ ∃ w, Blank w ∧ s = w ++ (c :: token ++ r) := by
  constructor
  · intro h
    obtain ⟨w, hw, hs⟩ := exists_blank s
    exact ⟨w, hw, by rw [← trimLeft_of_afterToken h, ← hs]⟩
  · rintro ⟨w, hw, rfl⟩
    have htrim : Text.trimLeft (w ++ (c :: token ++ r)) = c :: token ++ r := by
      rw [trimLeft_append hw]
      exact trimLeft_cons hc _
    rw [afterToken, htrim, if_pos (List.isPrefixOf_iff_prefix.mpr (List.prefix_append _ _)),
      List.drop_left]

/-- A token does not come next if another character does. -/
theorem afterToken_eq_none (hw : Blank w) (hd : Text.isBlank d = false) (hcd : c ≠ d) :
    afterToken (c :: token) (w ++ d :: s) = none := by
  have htrim : Text.trimLeft (w ++ d :: s) = d :: s := by
    rw [trimLeft_append hw, trimLeft_cons hd]
  simp [afterToken, htrim, List.isPrefixOf, hcd]

theorem afterToken_blank (hw : Blank w) : afterToken (c :: token) w = none := by
  simp [afterToken, trimLeft_eq_nil hw]

theorem afterToken_trimLeft (token s : List Char) :
    afterToken token (Text.trimLeft s) = afterToken token s := by
  simp [afterToken]

theorem closing_nil : Closing depth [] ↔ depth = 0 := by
  constructor
  · intro h
    simpa [eq_comm] using h.total
  · rintro rfl
    exact ⟨by simp, by simp⟩

theorem closing_cons_close : Closing depth (')' :: s) ↔ ∃ d, depth = d + 1 ∧ Closing d s := by
  constructor
  · intro h
    have hfirst := h.prefixes [')'] (by simp)
    have htotal := h.total
    simp only [List.count_cons_self, List.count_nil, List.count_cons_of_ne (by decide : ')' ≠ '(')]
      at hfirst htotal
    refine ⟨depth - 1, by omega, fun p hp => ?_, by omega⟩
    have := h.prefixes (')' :: p) (List.cons_prefix_cons.mpr ⟨rfl, hp⟩)
    simp only [List.count_cons_self, List.count_cons_of_ne (by decide : ')' ≠ '(')] at this
    omega
  · rintro ⟨d, rfl, h⟩
    have htotal := h.total
    refine ⟨fun p hp => ?_, ?_⟩
    · obtain rfl | ⟨t, rfl, ht⟩ := List.prefix_cons_iff.mp hp
      · simp
      · have := h.prefixes t ht
        simp only [List.count_cons_self, List.count_cons_of_ne (by decide : ')' ≠ '(')]
        omega
    · simp only [List.count_cons_self, List.count_cons_of_ne (by decide : ')' ≠ '(')]
      omega

theorem closing_cons (hc : c ≠ ')') :
    Closing depth (c :: s) ↔ Closing (if c = '(' then depth + 1 else depth) s := by
  have hclose (p : List Char) : (c :: p).count ')' = p.count ')' := List.count_cons_of_ne hc
  have hopen (p : List Char) :
      depth + (c :: p).count '(' = (if c = '(' then depth + 1 else depth) + p.count '(' := by
    by_cases h : c = '('
    · subst h
      simp only [List.count_cons_self, if_true]
      omega
    · simp [h]
  constructor
  · intro h
    refine ⟨fun p hp => ?_, ?_⟩
    · rw [← hopen, ← hclose]
      exact h.prefixes (c :: p) (List.cons_prefix_cons.mpr ⟨rfl, hp⟩)
    · rw [← hopen, ← hclose]
      exact h.total
  · intro h
    refine ⟨fun p hp => ?_, ?_⟩
    · obtain rfl | ⟨t, rfl, ht⟩ := List.prefix_cons_iff.mp hp
      · simp
      · rw [hopen, hclose]
        exact h.prefixes t ht
    · rw [hopen, hclose]
      exact h.total

theorem map_cons_eq_some {o : Option (List Char × List Char)} :
    (o.map fun p => (c :: p.1, p.2)) = some (d :: body, r) ↔ c = d ∧ o = some (body, r) := by
  simp only [Option.map_eq_some_iff, Prod.mk.injEq, List.cons.injEq]
  constructor
  · rintro ⟨p, hp, ⟨rfl, rfl⟩, rfl⟩
    exact ⟨rfl, hp⟩
  · rintro ⟨rfl, hp⟩
    exact ⟨_, hp, ⟨rfl, rfl⟩, rfl⟩

/-- What is read up to the closing parenthesis closes all others. -/
theorem balanced_eq_some :
    balanced depth s = some (body, r) ↔ s = body ++ ')' :: r ∧ Closing depth body := by
  induction s generalizing depth body with
  | nil => simp [balanced]
  | cons c s ih =>
    by_cases hc : c = ')'
    · subst hc
      cases body with
      | nil => cases depth <;> simp [balanced, closing_nil]
      | cons b body =>
        cases depth with
        | zero =>
          -- the first character closes the parenthesis, so that nothing is left for the body
          have hnone : ¬Closing 0 (')' :: body) := fun h => by
            obtain ⟨d, hd, -⟩ := closing_cons_close.mp h
            omega
          simp only [balanced, if_true, Option.some.injEq, Prod.mk.injEq, List.cons_append,
            List.cons.injEq, reduceCtorEq, false_and, false_iff]
          rintro ⟨⟨rfl, -⟩, h⟩
          exact hnone h
        | succ d =>
          simp only [balanced, if_true]
          rw [map_cons_eq_some, ih, List.cons_append, List.cons.injEq]
          constructor
          · rintro ⟨rfl, rfl, h⟩
            exact ⟨⟨rfl, rfl⟩, closing_cons_close.mpr ⟨d, rfl, h⟩⟩
          · rintro ⟨⟨rfl, rfl⟩, h⟩
            obtain ⟨d', hd, h⟩ := closing_cons_close.mp h
            obtain rfl : d = d' := by omega
            exact ⟨rfl, rfl, h⟩
    · cases body with
      | nil => simp [balanced, hc]
      | cons b body =>
        simp only [balanced, hc, if_false]
        rw [map_cons_eq_some, ih, List.cons_append, List.cons.injEq]
        constructor
        · rintro ⟨rfl, rfl, h⟩
          exact ⟨⟨rfl, rfl⟩, (closing_cons hc).mpr h⟩
        · rintro ⟨⟨rfl, rfl⟩, h⟩
          exact ⟨rfl, rfl, (closing_cons hc).mp h⟩

theorem ofExecution_ofList (s : List Char) : ofExecution (String.ofList s) = ofExecutionChars s :=
  congrArg ofExecutionChars String.toList_ofList

theorem ofDesignator?_eq_some : ofDesignator? name body = some e ↔ Designates name body e := by
  constructor
  · intro h
    unfold ofDesignator? at h
    split at h
    next hname =>
      cases h
      rw [hname, ← ofExecution_ofList]
      exact .execution body
    next =>
      split at h
      next hname =>
        cases h
        exact hname ▸ .within body
      next =>
        split at h
        next hname =>
          cases h
          exact hname ▸ .method body
        next => contradiction
  · rintro (_ | _ | _)
    · simp [ofDesignator?, ofExecution_ofList]
    · simp [ofDesignator?]
    · simp [ofDesignator?]

end Weaving.Expression
