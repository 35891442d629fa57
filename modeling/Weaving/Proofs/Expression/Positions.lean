import Weaving.Proofs.Expression.Parsing
import Weaving.Proofs.Expression.Scanner

/-! Scanners follow readers. Wherever a scanner stands in its input, it does with the slices what the reader
does with the rest, stops where the reader stops, and has stood only where characters begin. That it comes
to an end and that no slice is out of range follows by induction on the rest. -/
namespace Weaving.Expression

variable {input s t r : List Char} {α β : Type}

/-- The byte in the input where a rest of it begins. -/
def offset (input r : List Char) : Nat := byteLength input - byteLength r

theorem offset_append (l r : List Char) : offset (l ++ r) r = byteLength l := by
  rw [offset, byteLength_append, Nat.add_sub_cancel]

theorem offset_add (h : t ++ r <:+ input) : offset input (t ++ r) + byteLength t = offset input r := by
  obtain ⟨l, rfl⟩ := h
  rw [offset_append, ← List.append_assoc, offset_append, byteLength_append]

theorem offset_mono (hs : s <:+ input) (hr : r <:+ s) : offset input s ≤ offset input r := by
  obtain ⟨t, rfl⟩ := hr
  rw [← offset_add hs]
  exact Nat.le_add_right _ _

theorem offset_lt (hs : s <:+ input) (hr : r <:+ s) (h : r.length < s.length) :
    offset input s < offset input r := by
  obtain ⟨t, rfl⟩ := hr
  have ht : byteLength t ≠ 0 := by
    rw [Ne, byteLength_eq_zero]
    rintro rfl
    simp at h
  have hadd := offset_add hs
  omega

theorem offset_lt_length (h : r <:+ input) : offset input r < byteLength input ↔ r ≠ [] := by
  obtain ⟨l, rfl⟩ := h
  rw [offset_append, byteLength_append, Nat.lt_add_right_iff_pos, Nat.pos_iff_ne_zero, Ne, byteLength_eq_zero]

theorem splitAtByte_offset (h : s <:+ input) :
    (splitAtByte (offset input s) input).map Prod.snd = some s := by
  obtain ⟨l, rfl⟩ := h
  rw [offset_append, splitAtByte_append]
  rfl

/-- A cursor stands before a rest of the input, and has come there properly: it never went back, it stood only
where characters begin, and calls that it noted went further right. -/
structure Cursor.Stands (input r : List Char) (k : Cursor) : Prop where
  suffix : r <:+ input
  pos : k.pos = offset input r
  forward : k.trail.Pairwise (· ≥ ·)
  boundary : ∀ p ∈ k.trail, ∃ l, l <+: input ∧ p = byteLength l
  calls : ∀ c ∈ k.calls, c.1 < c.2

theorem Cursor.stands_start (input : List Char) : ({} : Cursor).Stands input input where
  suffix := List.suffix_rfl
  pos := by rw [offset, Nat.sub_self]
  forward := by simp [trail]
  boundary p hp := by
    obtain rfl := List.mem_singleton.mp hp
    exact ⟨[], List.nil_prefix, rfl⟩
  calls := by simp

theorem Cursor.Stands.move {k : Cursor} (h : k.Stands input s) (hr : r <:+ s) :
    Cursor.Stands input r { k with pos := offset input r, passed := k.trail } where
  suffix := hr.trans h.suffix
  pos := rfl
  forward := by
    have hlatest : k.pos ≤ offset input r := h.pos ▸ offset_mono h.suffix hr
    refine List.pairwise_cons.mpr ⟨fun p hp => ?_, h.forward⟩
    obtain rfl | hp := List.mem_cons.mp hp
    · exact hlatest
    · exact ((List.pairwise_cons.mp h.forward).1 p hp).trans hlatest
  boundary p hp := by
    obtain rfl | hp := List.mem_cons.mp hp
    · obtain ⟨l, rfl⟩ := hr.trans h.suffix
      exact ⟨l, List.prefix_append _ _, offset_append l r⟩
    · exact h.boundary p hp
  calls := h.calls

theorem Cursor.Stands.note {k : Cursor} (h : k.Stands input r) {start : Nat} (hstart : start < offset input r) :
    Cursor.Stands input r { k with calls := (start, k.pos) :: k.calls } where
  suffix := h.suffix
  pos := h.pos
  forward := h.forward
  boundary := h.boundary
  calls c hc := by
    obtain rfl | hc := List.mem_cons.mp hc
    · exact h.pos ▸ hstart
    · exact h.calls c hc

/-- What a scanner says where a reader gives an answer. -/
def told (input : List Char) : Except Stop (α × List Char) → Except Halt α
  | .ok (a, _) => .ok a
  | .error stop => .error (.fault (faultAt input stop))

/-- What a reader leaves of its text. -/
def left : Except Stop (α × List Char) → List Char
  | .ok (_, r) => r
  | .error stop => stop.rest

/-- From wherever it stands before a text, a scanner comes to an end with what the reader answers, and stands
before what the reader leaves. -/
def Follows (input : List Char) (f : Scan α) (s : List Char) (x : Except Stop (α × List Char)) : Prop :=
  ∀ k : Cursor, k.Stands input s → ∃ k', f.run.run k = some (told input x, k') ∧ k'.Stands input (left x)

namespace Follows

variable {f : Scan α} {g : α → Scan β} {a : α} {x : Except Stop (α × List Char)}

theorem pure (a : α) : Follows input (Pure.pure a) s (.ok (a, s)) := fun k hk => ⟨k, rfl, hk⟩

theorem bind {h : α × List Char → Except Stop (β × List Char)} (hf : Follows input f s x)
    (hg : ∀ a r, x = .ok (a, r) → Follows input (g a) r (h (a, r))) :
    Follows input (f >>= g) s (x >>= h) := by
  intro k hk
  obtain ⟨k', hrun, hk'⟩ := hf k hk
  cases x with
  | error stop => exact ⟨k', Scan.run_bind_error hrun, hk'⟩
  | ok y =>
    obtain ⟨k'', hrun', hk''⟩ := hg y.1 y.2 rfl k' hk'
    exact ⟨k'', (Scan.run_bind_ok hrun).trans hrun', hk''⟩

/-- After a part that cannot fail. -/
theorem after {y : Except Stop (β × List Char)} (hf : Follows input f s (.ok (a, r)))
    (hg : Follows input (g a) r y) : Follows input (f >>= g) s y :=
  bind (h := fun _ => y) hf fun b t hb => by
    cases hb
    exact hg

theorem of_suffix (h : s <:+ input → Follows input f s x) : Follows input f s x :=
  fun k hk => h hk.suffix k hk

/-! What the scanner is made of. -/

theorem fail (message : String) : Follows input (Scan.fail input message : Scan α) s (.error ⟨s, message⟩) := by
  intro k hk
  refine ⟨k, ?_, hk⟩
  rw [told, faultAt, ← offset, ← hk.pos]
  rfl

theorem position : Follows input Scan.position s (.ok (offset input s, s)) :=
  fun k hk => ⟨k, by rw [told, ← hk.pos]; rfl, hk⟩

theorem moveTo (h : r <:+ s) : Follows input (Scan.moveTo (offset input r)) s (.ok ((), r)) :=
  fun _ hk => ⟨_, rfl, hk.move h⟩

theorem noteCall {start : Nat} (h : start < offset input s) :
    Follows input (Scan.noteCall start) s (.ok ((), s)) :=
  fun _ hk => ⟨_, rfl, hk.note h⟩

theorem inRange {o : Option α} (h : o = some a) : Follows input (Scan.inRange o) s (.ok (a, s)) :=
  h ▸ pure a

theorem rest : Follows input (Scan.rest input) s (.ok (s, s)) :=
  of_suffix fun hs => after position (inRange (splitAtByte_offset hs))

theorem skipBlanks : Follows input (Scan.skipBlanks input) s (.ok ((), Text.trimLeft s)) :=
  after rest (moveTo (List.dropWhile_suffix _))

theorem eat_some {token : List Char} (h : afterToken token s = some r) :
    Follows input (Scan.eat input token) s (.ok (true, r)) := by
  refine after skipBlanks (after rest ?_)
  rw [trimLeft_of_afterToken h, if_pos (List.isPrefixOf_iff_prefix.mpr (List.prefix_append _ _))]
  refine of_suffix fun hs => after position ?_
  rw [offset_add hs]
  exact after (moveTo (List.suffix_append _ _)) (pure true)

theorem eat_none {token : List Char} (h : afterToken token s = none) :
    Follows input (Scan.eat input token) s (.ok (false, Text.trimLeft s)) := by
  refine after skipBlanks (after rest ?_)
  have hother : ¬token.isPrefixOf (Text.trimLeft s) = true := by simpa [afterToken] using h
  rw [if_neg hother]
  exact pure false

theorem balancedBody : Follows input (Scan.balancedBody input) s (readBody s) := by
  refine of_suffix fun hs => after position (after rest ?_)
  rw [closingByte_eq, readBody]
  cases hbody : balanced 0 s with
  | none => exact fail _
  | some p =>
    obtain ⟨b, r⟩ := p
    obtain ⟨rfl, -⟩ := balanced_eq_some.mp hbody
    have hend : offset input (b ++ ')' :: r) + byteLength b + 1 = offset input r := by
      have hclosed := offset_add (t := b ++ [')']) (r := r) (by simpa using hs)
      rwa [byteLength_append, ← Nat.add_assoc, List.append_assoc] at hclosed
    have hbody : slice (offset input (b ++ ')' :: r)) (offset input (b ++ ')' :: r) + byteLength b) input =
        some b := by
      obtain ⟨l, rfl⟩ := hs
      rw [offset_append]
      exact slice_append _ _ _
    refine after (inRange hbody) (after (a := ()) (r := r) ?_ (pure b))
    rw [hend]
    exact moveTo ⟨b ++ [')'], by simp⟩

theorem designator : Follows input (Scan.designator input) s (plain (readDesignator s)) := by
  rw [plain_readDesignator]
  refine after skipBlanks (after rest ?_)
  rw [findByte_not]
  by_cases hname : (Text.trimLeft s).takeWhile Text.isNameChar = []
  · rw [if_pos (byteLength_eq_zero.mpr hname), if_pos hname]
    exact fail _
  · rw [if_neg (mt byteLength_eq_zero.mp hname), if_neg hname]
    -- the text that is scanned from here on: the name, and what follows it
    obtain ⟨name, r, ht, hn, hr⟩ : ∃ name r, Text.trimLeft s = name ++ r ∧
        (Text.trimLeft s).takeWhile Text.isNameChar = name ∧
        (Text.trimLeft s).dropWhile Text.isNameChar = r :=
      ⟨_, _, List.takeWhile_append_dropWhile.symm, rfl, rfl⟩
    have hcut : (splitAtByte (byteLength name) (name ++ r)).map Prod.fst = some name := by
      rw [splitAtByte_append]
      rfl
    rw [hn, hr, ht]
    refine of_suffix fun hs => after (inRange hcut) (after position ?_)
    rw [offset_add hs]
    refine after (moveTo (List.suffix_append _ _)) ?_
    cases hb : afterToken ['('] r with
    | none => exact after (eat_none hb) (fail _)
    | some b =>
      refine after (eat_some hb) (bind balancedBody fun body r' _ => ?_)
      dsimp only
      cases ofDesignator? name body with
      | some e => exact pure e
      | none => exact fail _

end Follows

/-- With some depth the scanners of all levels follow their readers, on texts that are short enough. -/
structure Followed (input : List Char) (depth : Nat) : Prop where
  unary {s : List Char} : 3 * s.length + 1 ≤ depth →
    Follows input (Scan.unary input depth) s (plain (readUnary s))
  conjunction {s : List Char} : 3 * s.length + 2 ≤ depth →
    Follows input (Scan.conjunction input depth) s (plain (readAnd s))
  conjunctionTail {s : List Char} (e : Expression) : 3 * s.length + 1 ≤ depth →
    Follows input (Scan.conjunctionTail input depth e) s (plain (readAndTail e s))
  disjunction {s : List Char} : 3 * s.length + 3 ≤ depth →
    Follows input (Scan.disjunction input depth) s (plain (readOr s))
  disjunctionTail {s : List Char} (e : Expression) : 3 * s.length + 1 ≤ depth →
    Follows input (Scan.disjunctionTail input depth e) s (plain (readOrTail e s))

namespace Followed

variable {depth : Nat} (ih : Followed input depth)

include ih

theorem unary_succ (hs : 3 * s.length ≤ depth) :
    Follows input (Scan.unary input (depth + 1)) s (plain (readUnary s)) := by
  rw [Scan.unary, plain_readUnary]
  refine .of_suffix fun hsuffix => .after .position ?_
  -- whatever token comes, the call behind it is further right and on a shorter text
  have hcall {token r : List Char} (htoken : 0 < token.length) (hr : afterToken token s = some r) :
      offset input s < offset input r ∧ 3 * r.length + 3 ≤ depth := by
    have hshort := length_of_afterToken htoken hr
    exact ⟨offset_lt hsuffix (suffix_of_afterToken hr) hshort, by omega⟩
  cases hn : afterToken ['!'] s with
  | some r =>
    obtain ⟨hright, hdepth⟩ := hcall (by decide) hn
    exact .after (.eat_some hn) (.after (.noteCall hright) (.bind (ih.unary (by omega)) fun e _ _ => .pure _))
  | none =>
    -- the blanks before a token that does not come have been skipped
    refine .after (.eat_none hn) ?_
    cases hp : afterToken ['('] s with
    | some r =>
      obtain ⟨hright, hdepth⟩ := hcall (by decide) hp
      refine .after (.eat_some ((afterToken_trimLeft _ _).trans hp)) (.after (.noteCall hright) ?_)
      refine .bind (ih.disjunction hdepth) fun e r' _ => ?_
      dsimp only [readClose]
      cases hc : afterToken [')'] r' with
      | some r'' => exact .after (.eat_some hc) (.pure e)
      | none => exact .after (.eat_none hc) (.fail _)
    | none =>
      refine .after (.eat_none ((afterToken_trimLeft _ _).trans hp)) ?_
      rw [Text.trimLeft_trimLeft, ← plain_readDesignator_trimLeft]
      exact .designator

theorem conjunctionTail_succ (e : Expression) (hs : 3 * s.length ≤ depth) :
    Follows input (Scan.conjunctionTail input (depth + 1) e) s (plain (readAndTail e s)) := by
  rw [Scan.conjunctionTail, plain_readAndTail]
  cases hr : afterToken ['&', '&'] s with
  | none => exact .after (.eat_none hr) (.pure e)
  | some r =>
    have hshort := length_of_afterToken (by decide) hr
    refine .after (.eat_some hr) (.bind (ih.unary (by omega)) fun f r' hf => ?_)
    have hshorter : r'.length < r.length := (gives_iff_plain.mpr hf).rest
    exact ih.conjunctionTail (and e f) (by omega)

theorem conjunction_succ (hs : 3 * s.length + 1 ≤ depth) :
    Follows input (Scan.conjunction input (depth + 1)) s (plain (readAnd s)) := by
  rw [Scan.conjunction, plain_readAnd]
  refine .bind (ih.unary hs) fun e r he => ?_
  have hshort : r.length < s.length := (gives_iff_plain.mpr he).rest
  exact ih.conjunctionTail e (by omega)

theorem disjunctionTail_succ (e : Expression) (hs : 3 * s.length ≤ depth) :
    Follows input (Scan.disjunctionTail input (depth + 1) e) s (plain (readOrTail e s)) := by
  rw [Scan.disjunctionTail, plain_readOrTail]
  cases hr : afterToken ['|', '|'] s with
  | none => exact .after (.eat_none hr) (.pure e)
  | some r =>
    have hshort := length_of_afterToken (by decide) hr
    refine .after (.eat_some hr) (.bind (ih.conjunction (by omega)) fun f r' hf => ?_)
    have hshorter : r'.length < r.length := (gives_iff_plain.mpr hf).rest
    exact ih.disjunctionTail (or e f) (by omega)

theorem disjunction_succ (hs : 3 * s.length + 2 ≤ depth) :
    Follows input (Scan.disjunction input (depth + 1)) s (plain (readOr s)) := by
  rw [Scan.disjunction, plain_readOr]
  refine .bind (ih.conjunction hs) fun e r he => ?_
  have hshort : r.length < s.length := (gives_iff_plain.mpr he).rest
  exact ih.disjunctionTail e (by omega)

end Followed

theorem followed (input : List Char) (depth : Nat) : Followed input depth := by
  induction depth with
  | zero => constructor <;> intros <;> omega
  | succ depth ih =>
    exact ⟨fun hs => ih.unary_succ (by omega), fun hs => ih.conjunction_succ (by omega),
      fun e hs => ih.conjunctionTail_succ e (by omega), fun hs => ih.disjunction_succ (by omega),
      fun e hs => ih.disjunctionTail_succ e (by omega)⟩

/-- The answer of the reader of disjunctions, if nothing but blanks follows. -/
def readWhole (s : List Char) : Except Stop (Expression × List Char) :=
  plain (readOr s) >>= fun y =>
    if Text.trimLeft y.2 = [] then .ok (y.1, Text.trimLeft y.2)
    else .error ⟨Text.trimLeft y.2, "unexpected trailing input"⟩

theorem told_readWhole (s : List Char) : told s (readWhole s) = (parseChars s).mapError .fault := by
  rw [readWhole, parseChars]
  cases readOr s with
  | error stop => rfl
  | ok y =>
    dsimp only [plain_ok, bind, Except.bind]
    by_cases h : Text.trimLeft y.2.1 = []
    · rw [if_pos h, if_pos (List.isEmpty_iff.mpr h)]
      rfl
    · rw [if_neg h, if_neg (mt List.isEmpty_iff.mp h)]
      rfl

theorem follows_whole {s : List Char} {depth : Nat} (hs : 3 * s.length + 3 ≤ depth) :
    Follows s (Scan.whole s depth) s (readWhole s) := by
  rw [Scan.whole, readWhole]
  refine .bind ((followed s depth).disjunction hs) fun e r _ => .after .skipBlanks ?_
  refine .of_suffix fun hr => .after .position ?_
  by_cases h : Text.trimLeft r = []
  · rw [if_neg (mt (offset_lt_length hr).mp (not_not.mpr h)), if_pos h]
    exact .pure e
  · rw [if_pos ((offset_lt_length hr).mpr h), if_neg h]
    exact .fail _

theorem isValid_of_prefix {l : List Char} {s : String} (h : l <+: s.toList) :
    String.Pos.Raw.IsValid s ⟨byteLength l⟩ := by
  obtain ⟨r, hr⟩ := h
  refine String.Pos.Raw.isValid_iff_exists_append.mpr ⟨String.ofList l, String.ofList r, ?_, ?_⟩
  · rw [← String.ofList_append, hr, String.ofList_toList]
  · rw [String.rawEndPos_ofList, byteLength_eq]

/-- Scanning is safe and does what parsing does. Calls and loops are nested at most three times as deep as the
text is long, and come to an end with the answer of the parser, so that no slice is ever out of range. On its
way the scanner stands only at bytes of the text where characters begin, or at its end, and never goes back;
all calls of the scanner of unary phrases go further right; and what is wrong with a text is told with the whole
text and one of these places. -/
theorem scan_safe (s : String) : ∃ k : Cursor,
    (∀ depth, 3 * s.length + 3 ≤ depth →
      (Scan.whole s.toList depth).run.run {} = some ((parse s).mapError .fault, k)) ∧
    k.trail.Pairwise (· ≥ ·) ∧
    (∀ p ∈ k.trail, p ≤ s.utf8ByteSize ∧ String.Pos.Raw.IsValid s ⟨p⟩) ∧
    (∀ c ∈ k.calls, c.1 < c.2) ∧
    ∀ f, parse s = .error f → ∃ p ∈ k.trail, ∃ message, f =
      .config ("invalid pointcut expression '" ++ s ++ "' at " ++ toString p ++ ": " ++ message) := by
  have hlength : 3 * s.toList.length + 3 ≤ 3 * s.length + 3 := by rw [String.length_toList]
  obtain ⟨k, hrun, hk⟩ := follows_whole hlength {} (Cursor.stands_start s.toList)
  have htold : told s.toList (readWhole s.toList) = (parse s).mapError .fault := told_readWhole s.toList
  rw [htold] at hrun
  refine ⟨k, fun depth hdepth => Scan.whole_below hdepth _ _ hrun, hk.forward, fun p hp => ?_, hk.calls,
    fun f hf => ?_⟩
  · obtain ⟨l, hl, rfl⟩ := hk.boundary p hp
    have hvalid := isValid_of_prefix hl
    exact ⟨hvalid.le_rawEndPos, hvalid⟩
  · rw [hf] at htold
    cases hread : readWhole s.toList with
    | ok y =>
      rw [hread] at htold
      cases htold
    | error stop =>
      rw [hread] at htold hk
      cases htold
      refine ⟨k.pos, List.mem_cons_self .., stop.message, ?_⟩
      rw [hk.pos, left, faultAt, String.ofList_toList]
      rfl

end Weaving.Expression
