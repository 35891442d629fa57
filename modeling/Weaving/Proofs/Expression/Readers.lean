import Weaving.Expression.Parser

/-! Readers, step by step. Without the proofs that rests get shorter, what a reader answers is put together
from what other readers answer, one after the other. -/
namespace Weaving.Expression

theorem bind_eq_ok {ε α β : Type} {x : Except ε α} {f : α → Except ε β} {b : β} :
    x >>= f = .ok b ↔ ∃ a, x = .ok a ∧ f a = .ok b := by
  cases x with
  | error e => simp [bind, Except.bind]
  | ok a => simp [bind, Except.bind]

variable {α : Type}

/-- The answer of a reader without the proof that its rest is shorter. -/
def plain {p : List Char → Prop} (x : Except Stop (α × { r : List Char // p r })) :
    Except Stop (α × List Char) :=
  x.map fun y => (y.1, y.2.1)

section

variable {p : List Char → Prop}

@[simp] theorem plain_ok (y : α × { r : List Char // p r }) : plain (.ok y) = .ok (y.1, y.2.1) := rfl

@[simp] theorem plain_error (stop : Stop) :
    plain (.error stop : Except Stop (α × { r : List Char // p r })) = .error stop := rfl

end

/-- The body of a designator and what is left behind its parenthesis. -/
def readBody (s : List Char) : Except Stop (List Char × List Char) :=
  match balanced 0 s with
  | some p => .ok p
  | none => .error ⟨s, "unbalanced parentheses"⟩

theorem readBody_eq_ok {s : List Char} {y : List Char × List Char} :
    readBody s = .ok y ↔ balanced 0 s = some y := by
  rw [readBody]
  cases balanced 0 s <;> simp

theorem plain_readDesignator (s : List Char) : plain (readDesignator s) =
    if (Text.trimLeft s).takeWhile Text.isNameChar = [] then
      .error ⟨Text.trimLeft s, "expected a designator"⟩
    else match afterToken ['('] ((Text.trimLeft s).dropWhile Text.isNameChar) with
      | none => .error ⟨Text.trimLeft ((Text.trimLeft s).dropWhile Text.isNameChar),
          "expected '(' after designator"⟩
      | some b => readBody b >>= fun y =>
        match ofDesignator? ((Text.trimLeft s).takeWhile Text.isNameChar) y.1 with
        | some e => .ok (e, y.2)
        | none => .error ⟨y.2, "unsupported designator '" ++
            String.ofList ((Text.trimLeft s).takeWhile Text.isNameChar) ++ "'"⟩ := by
  unfold readDesignator
  dsimp only
  split
  next hname =>
    rw [if_pos (List.isEmpty_iff.mp hname)]
    rfl
  next hname =>
    rw [if_neg (by rwa [← List.isEmpty_iff])]
    split
    next hb =>
      simp only [hb]
      rfl
    next b hb =>
      simp only [hb, readBody]
      split
      next hp =>
        simp only [hp]
        rfl
      next y hy =>
        simp only [hy, bind, Except.bind]
        cases ofDesignator? ((Text.trimLeft s).takeWhile Text.isNameChar) y.1 <;> rfl

theorem plain_readDesignator_trimLeft (s : List Char) :
    plain (readDesignator (Text.trimLeft s)) = plain (readDesignator s) := by
  rw [plain_readDesignator, plain_readDesignator, Text.trimLeft_trimLeft]

/-- An expression, when the parenthesis behind it has been closed. -/
def readClose (e : Expression) (s : List Char) : Except Stop (Expression × List Char) :=
  match afterToken [')'] s with
  | some r => .ok (e, r)
  | none => .error ⟨Text.trimLeft s, "expected ')'"⟩

theorem readClose_eq_ok {e f : Expression} {s r : List Char} :
    readClose e s = .ok (f, r) ↔ e = f ∧ afterToken [')'] s = some r := by
  rw [readClose]
  cases afterToken [')'] s <;> simp

theorem plain_readUnary (s : List Char) : plain (readUnary s) =
    match afterToken ['!'] s with
    | some r => plain (readUnary r) >>= fun y => .ok (not y.1, y.2)
    | none => match afterToken ['('] s with
      | some r => plain (readOr r) >>= fun y => readClose y.1 y.2
      | none => plain (readDesignator s) := by
  rw [readUnary]
  split
  next r hn =>
    simp only [hn]
    cases readUnary r with
    | error stop => rfl
    | ok y => rfl
  next hn =>
    simp only [hn]
    split
    next r hp =>
      simp only [hp]
      cases readOr r with
      | error stop => rfl
      | ok y =>
        obtain ⟨e, r'⟩ := y
        dsimp only [plain_ok, bind, Except.bind, readClose]
        split
        next hc => simp only [hc, plain_ok]
        next hc => simp only [hc, plain_error]
    next hp => simp only [hp]

theorem plain_readAnd (s : List Char) :
    plain (readAnd s) = plain (readUnary s) >>= fun y => plain (readAndTail y.1 y.2) := by
  rw [readAnd]
  cases readUnary s with
  | error stop => rfl
  | ok y =>
    obtain ⟨e, r⟩ := y
    dsimp only [plain, bind, Except.bind, Except.map]
    cases readAndTail e r.1 <;> rfl

theorem plain_readAndTail (e : Expression) (s : List Char) : plain (readAndTail e s) =
    match afterToken ['&', '&'] s with
    | some r => plain (readUnary r) >>= fun y => plain (readAndTail (and e y.1) y.2)
    | none => .ok (e, Text.trimLeft s) := by
  rw [readAndTail]
  split
  next r hr =>
    simp only [hr]
    cases readUnary r with
    | error stop => rfl
    | ok y =>
      obtain ⟨f, r'⟩ := y
      dsimp only [plain, bind, Except.bind, Except.map]
      cases readAndTail (and e f) r'.1 <;> rfl
  next hr =>
    simp only [hr]
    rfl

theorem plain_readOr (s : List Char) :
    plain (readOr s) = plain (readAnd s) >>= fun y => plain (readOrTail y.1 y.2) := by
  rw [readOr]
  cases readAnd s with
  | error stop => rfl
  | ok y =>
    obtain ⟨e, r⟩ := y
    dsimp only [plain, bind, Except.bind, Except.map]
    cases readOrTail e r.1 <;> rfl

theorem plain_readOrTail (e : Expression) (s : List Char) : plain (readOrTail e s) =
    match afterToken ['|', '|'] s with
    | some r => plain (readAnd r) >>= fun y => plain (readOrTail (or e y.1) y.2)
    | none => .ok (e, Text.trimLeft s) := by
  rw [readOrTail]
  split
  next r hr =>
    simp only [hr]
    cases readAnd r with
    | error stop => rfl
    | ok y =>
      obtain ⟨f, r'⟩ := y
      dsimp only [plain, bind, Except.bind, Except.map]
      cases readOrTail (or e f) r'.1 <;> rfl
  next hr =>
    simp only [hr]
    rfl

end Weaving.Expression
