import Weaving.Proofs.Expression.Grammar
import Weaving.Proofs.Expression.Readers

/-! Parsing accepts exactly the grammar. A reader gives a phrase that stands in front of what it leaves, and
whatever phrase stands in front is read, as long as what follows cannot go on with it. -/
namespace Weaving.Expression

/-- A reader gives something and leaves a rest. -/
def Gives {α : Type} {p : List Char → Prop} (x : Except Stop (α × { r : List Char // p r })) (a : α)
    (r : List Char) : Prop := ∃ h, x = .ok (a, ⟨r, h⟩)

section

variable {α : Type} {p : List Char → Prop} {a b : α} {r : List Char}

@[simp] theorem gives_ok {r' : { r : List Char // p r }} :
    Gives (.ok (a, r')) b r ↔ b = a ∧ r = r'.1 := by
  constructor
  · rintro ⟨h, heq⟩
    cases heq
    exact ⟨rfl, rfl⟩
  · rintro ⟨rfl, rfl⟩
    exact ⟨r'.2, rfl⟩

@[simp] theorem not_gives_error {stop : Stop} :
    ¬Gives (.error stop : Except Stop (α × { r : List Char // p r })) a r := by
  rintro ⟨h, heq⟩
  cases heq

theorem gives_iff_plain {x : Except Stop (α × { r : List Char // p r })} :
    Gives x a r ↔ plain x = .ok (a, r) := by
  cases x with
  | error stop => simp
  | ok y =>
    obtain ⟨b, r'⟩ := y
    simp [eq_comm]

theorem Gives.rest {x : Except Stop (α × { r : List Char // p r })} (h : Gives x a r) : p r := h.1

end

variable {s r : List Char} {e f : Expression}

theorem gives_readDesignator : Gives (readDesignator s) e r ↔
    ∃ b body, (Text.trimLeft s).takeWhile Text.isNameChar ≠ [] ∧
      afterToken ['('] ((Text.trimLeft s).dropWhile Text.isNameChar) = some b ∧
      balanced 0 b = some (body, r) ∧
      ofDesignator? ((Text.trimLeft s).takeWhile Text.isNameChar) body = some e := by
  rw [gives_iff_plain, plain_readDesignator]
  split
  next hname => simp [hname]
  next hname =>
    split
    next hb => simp [hb]
    next b hb =>
      rw [bind_eq_ok]
      constructor
      · rintro ⟨⟨body, r'⟩, hbody, he⟩
        split at he
        next hd =>
          cases he
          exact ⟨b, body, hname, hb, readBody_eq_ok.mp hbody, hd⟩
        next => contradiction
      · rintro ⟨b', body, -, hb', hbody, he⟩
        rw [hb] at hb'
        cases hb'
        exact ⟨(body, r), readBody_eq_ok.mpr hbody, by rw [he]⟩

/-- The reader of designators gives a name with its body in balanced parentheses. -/
theorem gives_readDesignator_iff : Gives (readDesignator s) e r ↔
    ∃ w name v body, Blank w ∧ name ≠ [] ∧ (∀ c ∈ name, Text.isNameChar c = true) ∧ Blank v ∧
      Balanced body ∧ Designates name body e ∧
      s = w ++ (name ++ (v ++ '(' :: (body ++ ')' :: r))) := by
  rw [gives_readDesignator]
  constructor
  · rintro ⟨b, body, hname, hb, hbody, he⟩
    obtain ⟨w, hw, hs⟩ := exists_blank s
    obtain ⟨v, hv, hrest⟩ := (afterToken_eq_some (by decide)).mp hb
    obtain ⟨rfl, hbalanced⟩ := balanced_eq_some.mp hbody
    refine ⟨w, _, v, body, hw, hname, List.all_eq_true.mp List.all_takeWhile, hv, hbalanced,
      ofDesignator?_eq_some.mp he, ?_⟩
    calc s = w ++ Text.trimLeft s := hs
      _ = w ++ ((Text.trimLeft s).takeWhile Text.isNameChar ++
          (Text.trimLeft s).dropWhile Text.isNameChar) := by rw [List.takeWhile_append_dropWhile]
      _ = _ := by
        rw [hrest]
        rfl
  · rintro ⟨w, name, v, body, hw, hname, hchars, hv, hbalanced, he, rfl⟩
    obtain ⟨c, cs, rfl⟩ := List.exists_cons_of_ne_nil hname
    have hc : Text.isBlank c = false := isBlank_eq_false_of_isNameChar (hchars c (List.mem_cons_self ..))
    have htrim : Text.trimLeft (w ++ (c :: cs ++ (v ++ '(' :: (body ++ ')' :: r)))) =
        c :: cs ++ (v ++ '(' :: (body ++ ')' :: r)) := by
      rw [trimLeft_append hw]
      exact trimLeft_cons hc _
    -- the name ends where the blanks or the parenthesis begin
    have hend : ∀ t, (v ++ '(' :: t).takeWhile Text.isNameChar = [] ∧
        (v ++ '(' :: t).dropWhile Text.isNameChar = v ++ '(' :: t := by
      intro t
      have hhead : ∃ d u, v ++ '(' :: t = d :: u ∧ Text.isNameChar d = false := by
        cases v with
        | nil => exact ⟨'(', t, rfl, by decide⟩
        | cons d v => exact ⟨d, _, rfl, not_isNameChar_of_isBlank (hv d (List.mem_cons_self ..))⟩
      obtain ⟨d, u, hdu, hd⟩ := hhead
      simp [hdu, hd]
    rw [htrim, List.takeWhile_append_of_pos hchars, List.dropWhile_append_of_pos hchars,
      (hend _).1, (hend _).2, List.append_nil]
    exact ⟨_, body, hname, (afterToken_eq_some (by decide)).mpr ⟨v, hv, rfl⟩,
      balanced_eq_some.mpr ⟨rfl, hbalanced⟩, ofDesignator?_eq_some.mpr he⟩

theorem gives_readUnary : Gives (readUnary s) e r ↔
    (∃ s' f, afterToken ['!'] s = some s' ∧ Gives (readUnary s') f r ∧ e = not f) ∨
    (∃ s' r', afterToken ['!'] s = none ∧ afterToken ['('] s = some s' ∧ Gives (readOr s') e r' ∧
      afterToken [')'] r' = some r) ∨
    (afterToken ['!'] s = none ∧ afterToken ['('] s = none ∧ Gives (readDesignator s) e r) := by
  simp only [gives_iff_plain]
  rw [plain_readUnary]
  cases afterToken ['!'] s with
  | some s' => simp [bind_eq_ok, @eq_comm _ e]
  | none =>
    cases afterToken ['('] s with
    | some s' => simp [bind_eq_ok, readClose_eq_ok, and_left_comm]
    | none => simp

theorem gives_readAnd : Gives (readAnd s) f r ↔
    ∃ e r', Gives (readUnary s) e r' ∧ Gives (readAndTail e r') f r := by
  simp only [gives_iff_plain]
  rw [plain_readAnd, bind_eq_ok, Prod.exists]

theorem gives_readAndTail : Gives (readAndTail e s) f r ↔
    (∃ s' g r', afterToken ['&', '&'] s = some s' ∧ Gives (readUnary s') g r' ∧
      Gives (readAndTail (and e g) r') f r) ∨
    (afterToken ['&', '&'] s = none ∧ f = e ∧ r = Text.trimLeft s) := by
  simp only [gives_iff_plain]
  rw [plain_readAndTail]
  cases afterToken ['&', '&'] s <;> simp [bind_eq_ok, @eq_comm _ f, @eq_comm _ r]

theorem gives_readOr : Gives (readOr s) f r ↔
    ∃ e r', Gives (readAnd s) e r' ∧ Gives (readOrTail e r') f r := by
  simp only [gives_iff_plain]
  rw [plain_readOr, bind_eq_ok, Prod.exists]

theorem gives_readOrTail : Gives (readOrTail e s) f r ↔
    (∃ s' g r', afterToken ['|', '|'] s = some s' ∧ Gives (readAnd s') g r' ∧
      Gives (readOrTail (or e g) r') f r) ∨
    (afterToken ['|', '|'] s = none ∧ f = e ∧ r = Text.trimLeft s) := by
  simp only [gives_iff_plain]
  rw [plain_readOrTail]
  cases afterToken ['|', '|'] s <;> simp [bind_eq_ok, @eq_comm _ f, @eq_comm _ r]

theorem gives_readOrTail_trimLeft :
    Gives (readOrTail e (Text.trimLeft s)) f r ↔ Gives (readOrTail e s) f r := by
  rw [gives_readOrTail, gives_readOrTail (s := s), afterToken_trimLeft, Text.trimLeft_trimLeft]

theorem gives_readOrTail_blank {w : List Char} (hw : Blank w) :
    Gives (readOrTail e (w ++ s)) f r ↔ Gives (readOrTail e s) f r := by
  rw [← gives_readOrTail_trimLeft, trimLeft_append hw, gives_readOrTail_trimLeft]

/-- What the reader of unary phrases takes from a text is such a phrase. -/
def UnarySound (s : List Char) : Prop :=
  ∀ e r, Gives (readUnary s) e r → ∃ t, s = t ++ r ∧ Phrase .unary t e

variable {t : List Char}

/-- A conjunction that stands before a text is a conjunction still with what is read on. -/
theorem conjunction_of_readAndTail (h : ∀ s', s'.length < s.length → UnarySound s')
    (ht : Phrase .conjunction t e) (hread : Gives (readAndTail e s) f r) :
    ∃ t' w, t ++ s = t' ++ (w ++ r) ∧ Phrase .conjunction t' f ∧ Blank w := by
  induction hn : s.length using Nat.strongRecOn generalizing s t e with
  | _ n ih =>
    subst hn
    obtain ⟨s', g, r', hs', hg, htail⟩ | ⟨-, rfl, rfl⟩ := gives_readAndTail.mp hread
    · obtain ⟨w, hw, rfl⟩ := (afterToken_eq_some (by decide)).mp hs'
      have hshort : s'.length < (w ++ ('&' :: ['&'] ++ s')).length := by
        simp only [List.length_append, List.length_cons]
        omega
      obtain ⟨u, rfl, hu⟩ := h s' hshort g r' hg
      have hshorter : r'.length < (w ++ ('&' :: ['&'] ++ (u ++ r'))).length := by
        simp only [List.length_append, List.length_cons]
        omega
      obtain ⟨t', v, htext, ht', hv⟩ := ih r'.length hshorter
        (fun s' hs' => h s' (by omega)) (ht.and hw hu) htail rfl
      exact ⟨t', v, by simpa using htext, ht', hv⟩
    · obtain ⟨w, hw, hs⟩ := exists_blank s
      exact ⟨t, w, by rw [← hs], ht, hw⟩

theorem conjunction_of_readAnd (h : ∀ s', s'.length ≤ s.length → UnarySound s')
    (hread : Gives (readAnd s) f r) :
    ∃ t w, s = t ++ (w ++ r) ∧ Phrase .conjunction t f ∧ Blank w := by
  obtain ⟨e, r', hunary, htail⟩ := gives_readAnd.mp hread
  have hshort := hunary.rest
  obtain ⟨u, rfl, hu⟩ := h s (Nat.le_refl _) e r' hunary
  exact conjunction_of_readAndTail (fun s' hs' => h s' (by omega)) (.unary hu) htail

/-- A disjunction that stands before a text is a disjunction still with what is read on. -/
theorem disjunction_of_readOrTail (h : ∀ s', s'.length < s.length → UnarySound s')
    (ht : Phrase .disjunction t e) (hread : Gives (readOrTail e s) f r) :
    ∃ t' w, t ++ s = t' ++ (w ++ r) ∧ Phrase .disjunction t' f ∧ Blank w := by
  induction hn : s.length using Nat.strongRecOn generalizing s t e with
  | _ n ih =>
    subst hn
    obtain ⟨s', g, r', hs', hg, htail⟩ | ⟨-, rfl, rfl⟩ := gives_readOrTail.mp hread
    · obtain ⟨w, hw, rfl⟩ := (afterToken_eq_some (by decide)).mp hs'
      have hshort : s'.length < (w ++ ('|' :: ['|'] ++ s')).length := by
        simp only [List.length_append, List.length_cons]
        omega
      obtain ⟨u, v, rfl, hu, hv⟩ := conjunction_of_readAnd (fun s'' hs'' => h s'' (by omega)) hg
      -- the blanks that the conjunction skipped go to the text read next
      have htail' : Gives (readOrTail (or e g) (v ++ r')) f r := (gives_readOrTail_blank hv).mpr htail
      have hshorter : (v ++ r').length < (w ++ ('|' :: ['|'] ++ (u ++ (v ++ r')))).length := by
        simp only [List.length_append, List.length_cons]
        omega
      obtain ⟨t', v', htext, ht', hv'⟩ := ih (v ++ r').length hshorter
        (fun s' hs' => h s' (by omega)) (ht.or hw hu) htail' rfl
      exact ⟨t', v', by simpa using htext, ht', hv'⟩
    · obtain ⟨w, hw, hs⟩ := exists_blank s
      exact ⟨t, w, by rw [← hs], ht, hw⟩

theorem disjunction_of_readOr (h : ∀ s', s'.length ≤ s.length → UnarySound s')
    (hread : Gives (readOr s) f r) :
    ∃ t w, s = t ++ (w ++ r) ∧ Phrase .disjunction t f ∧ Blank w := by
  obtain ⟨e, r', hand, htail⟩ := gives_readOr.mp hread
  have hshort := hand.rest
  obtain ⟨u, v, rfl, hu, hv⟩ := conjunction_of_readAnd h hand
  refine disjunction_of_readOrTail (fun s' hs' => h s' ?_) (.conjunction hu)
    ((gives_readOrTail_blank hv).mpr htail)
  simp only [List.length_append] at hs' ⊢
  omega

theorem unarySound (s : List Char) : UnarySound s := by
  induction hn : s.length using Nat.strongRecOn generalizing s with
  | _ n ih =>
    subst hn
    intro e r hread
    obtain ⟨s', f, hs', hinner, rfl⟩ | ⟨s', r', -, hs', hinner, hr'⟩ | ⟨-, -, hinner⟩ :=
      gives_readUnary.mp hread
    · obtain ⟨w, hw, rfl⟩ := (afterToken_eq_some (by decide)).mp hs'
      obtain ⟨t, rfl, ht⟩ := ih s'.length (length_of_afterToken (by decide) hs') s' rfl f r hinner
      exact ⟨w ++ '!' :: t, by simp, .not hw ht⟩
    · have hshort := length_of_afterToken (by decide) hs'
      obtain ⟨w, hw, rfl⟩ := (afterToken_eq_some (by decide)).mp hs'
      obtain ⟨t, v, rfl, ht, hv⟩ :=
        disjunction_of_readOr (fun s'' hs'' => ih s''.length (by omega) s'' rfl) hinner
      obtain ⟨v', hv', rfl⟩ := (afterToken_eq_some (by decide)).mp hr'
      refine ⟨w ++ '(' :: (t ++ ((v ++ v') ++ [')'])), by simp, .group hw ht fun c hc => ?_⟩
      exact (List.mem_append.mp hc).elim (hv c) (hv' c)
    · obtain ⟨w, name, v, body, hw, hname, hchars, hv, hbody, he, rfl⟩ :=
        gives_readDesignator_iff.mp hinner
      exact ⟨w ++ (name ++ (v ++ '(' :: (body ++ [')']))), by simp,
        .designator hw hname hchars hv hbody he⟩

/-- How a phrase of a level is read when something follows: a unary phrase always, a conjunction or a
disjunction by reading on. -/
def Reads : Level → List Char → Expression → Prop
  | .unary, s, e => ∀ r, Gives (readUnary (s ++ r)) e r
  | .conjunction, s, e => ∀ r f r', Gives (readAndTail e r) f r' → Gives (readAnd (s ++ r)) f r'
  | .disjunction, s, e => ∀ r f r', afterToken ['&', '&'] r = none → Gives (readOrTail e r) f r' →
      Gives (readOr (s ++ r)) f r'

/-- Every phrase is read, by induction on the phrase. -/
theorem reads_of_phrase {l : Level} (h : Phrase l s e) : Reads l s e := by
  induction h with
  | @not w s e hw _ ih =>
    intro r
    refine gives_readUnary.mpr (.inl ⟨s ++ r, e, ?_, ih r, rfl⟩)
    exact (afterToken_eq_some (by decide)).mpr ⟨w, hw, by simp⟩
  | @group w s v e hw _ hv ih =>
    intro r
    have htext : w ++ '(' :: (s ++ (v ++ [')'])) ++ r = w ++ '(' :: (s ++ (v ++ ')' :: r)) := by simp
    rw [htext]
    refine gives_readUnary.mpr (.inr (.inl ⟨s ++ (v ++ ')' :: r), ')' :: r, ?_, ?_, ?_, ?_⟩))
    · exact afterToken_eq_none hw (by decide) (by decide)
    · exact (afterToken_eq_some (by decide)).mpr ⟨w, hw, rfl⟩
    · refine ih _ _ _ (afterToken_eq_none hv (by decide) (by decide)) ?_
      refine gives_readOrTail.mpr (.inr ⟨afterToken_eq_none hv (by decide) (by decide), rfl, ?_⟩)
      rw [trimLeft_append hv, trimLeft_cons (by decide)]
    · exact (afterToken_eq_some (by decide)).mpr ⟨[], blank_nil, rfl⟩
  | @designator w name v body e hw hname hchars hv hbody he =>
    intro r
    have htext : w ++ (name ++ (v ++ '(' :: (body ++ [')']))) ++ r =
        w ++ (name ++ (v ++ '(' :: (body ++ ')' :: r))) := by simp
    rw [htext]
    obtain ⟨c, cs, hc⟩ := List.exists_cons_of_ne_nil hname
    have hchar : Text.isNameChar c = true := hchars c (by simp [hc])
    have hblank := isBlank_eq_false_of_isNameChar hchar
    have hother (d : Char) (hd : Text.isNameChar d = false) : d ≠ c := by
      rintro rfl
      rw [hd] at hchar
      contradiction
    refine gives_readUnary.mpr (.inr (.inr ⟨?_, ?_, ?_⟩))
    · rw [hc]
      exact afterToken_eq_none hw hblank (hother '!' (by decide))
    · rw [hc]
      exact afterToken_eq_none hw hblank (hother '(' (by decide))
    · exact gives_readDesignator_iff.mpr ⟨w, name, v, body, hw, hname, hchars, hv, hbody, he, rfl⟩
  | unary _ ih => exact fun r f r' htail => gives_readAnd.mpr ⟨_, r, ih r, htail⟩
  | @and s w t e f _ hw _ ihs iht =>
    intro r g r' htail
    have htext : s ++ (w ++ '&' :: '&' :: t) ++ r = s ++ (w ++ '&' :: '&' :: (t ++ r)) := by simp
    rw [htext]
    refine ihs _ _ _ (gives_readAndTail.mpr (.inl ⟨t ++ r, f, r, ?_, iht r, htail⟩))
    exact (afterToken_eq_some (by decide)).mpr ⟨w, hw, rfl⟩
  | @conjunction s e _ ih =>
    intro r f r' hr htail
    have hread : Gives (readAnd (s ++ r)) e (Text.trimLeft r) :=
      ih r e _ (gives_readAndTail.mpr (.inr ⟨hr, rfl, rfl⟩))
    exact gives_readOr.mpr ⟨e, _, hread, gives_readOrTail_trimLeft.mpr htail⟩
  | @or s w t e f _ hw _ ihs iht =>
    intro r g r' hr htail
    have htext : s ++ (w ++ '|' :: '|' :: t) ++ r = s ++ (w ++ '|' :: '|' :: (t ++ r)) := by simp
    rw [htext]
    have hread : Gives (readAnd (t ++ r)) f (Text.trimLeft r) :=
      iht r f _ (gives_readAndTail.mpr (.inr ⟨hr, rfl, rfl⟩))
    refine ihs _ _ _ (afterToken_eq_none hw (by decide) (by decide)) ?_
    refine gives_readOrTail.mpr (.inl ⟨t ++ r, f, _, ?_, hread, gives_readOrTail_trimLeft.mpr htail⟩)
    exact (afterToken_eq_some (by decide)).mpr ⟨w, hw, rfl⟩

/-- The text of a disjunction with blanks after it is read to its end. -/
theorem gives_readOr_iff_denotes :
    (∃ r, Gives (readOr s) e r ∧ Text.trimLeft r = []) ↔ Denotes s e := by
  constructor
  · rintro ⟨r, hread, hr⟩
    obtain ⟨t, v, rfl, ht, hv⟩ := disjunction_of_readOr (fun s' _ => unarySound s') hread
    obtain ⟨w, hw, hrest⟩ := exists_blank r
    rw [hr, List.append_nil] at hrest
    refine ⟨t, v ++ r, rfl, ht, fun c hc => ?_⟩
    exact (List.mem_append.mp hc).elim (hv c) (hrest ▸ hw c)
  · rintro ⟨t, w, rfl, ht, hw⟩
    refine ⟨[], reads_of_phrase ht w e [] (afterToken_blank hw) ?_, rfl⟩
    exact gives_readOrTail.mpr (.inr ⟨afterToken_blank hw, rfl, (trimLeft_eq_nil hw).symm⟩)

theorem parseChars_eq_ok : parseChars s = .ok e ↔ ∃ r, Gives (readOr s) e r ∧ Text.trimLeft r = [] := by
  unfold parseChars
  cases hread : readOr s with
  | error stop => simp
  | ok x =>
    obtain ⟨e', r⟩ := x
    by_cases hr : Text.trimLeft r = []
    · simp only [hr, List.isEmpty_nil, if_true, gives_ok, Except.ok.injEq]
      constructor
      · rintro rfl
        exact ⟨_, ⟨rfl, rfl⟩, hr⟩
      · rintro ⟨_, ⟨rfl, rfl⟩, -⟩
        rfl
    · simp [hr]

theorem parseChars_eq_error {fault : Fault} (h : parseChars s = .error fault) :
    ∃ message, fault = .config message := by
  unfold parseChars at h
  split at h
  next =>
    split at h
    next => contradiction
    next =>
      cases h
      exact ⟨_, rfl⟩
  next =>
    cases h
    exact ⟨_, rfl⟩

/-- Parsing gives an expression exactly if the text stands for it in the grammar, and whatever text stands for
none is rejected as a configuration error. -/
theorem parse_exact (s : String) :
    (∀ e, parse s = .ok e ↔ Denotes s.toList e) ∧
      ((∃ e, Denotes s.toList e) ∨ ∃ message, parse s = .error (.config message)) := by
  have hok (e : Expression) : parse s = .ok e ↔ Denotes s.toList e :=
    parseChars_eq_ok.trans gives_readOr_iff_denotes
  refine ⟨hok, ?_⟩
  cases hs : parse s with
  | ok e => exact .inl ⟨e, (hok e).mp hs⟩
  | error fault =>
    obtain ⟨message, rfl⟩ := parseChars_eq_error hs
    exact .inr ⟨message, rfl⟩

end Weaving.Expression
