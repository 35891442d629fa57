import Weaving.Expression.Execution
import Weaving.Failure

/-! Reading pointcut expressions: designators (execution, within and method, each with a body in
balanced parentheses), negation, conjunction and disjunction, the last binding weakest, and
parentheses around any expression. A reader takes the rest of the input and gives back a shorter one,
or stops with a message at the place it has come to. -/
namespace Weaving.Expression

/-- Where and why reading stopped: what was left of the input, and the message. -/
structure Stop where
  rest : List Char
  message : String
  deriving DecidableEq, Repr

/-- What reading gives: something and a rest that is shorter than the input. -/
abbrev Read (α : Type) (s : List Char) := Except Stop (α × { r : List Char // r.length < s.length })

/-- Skips blanks and then a token, if it comes next. -/
def afterToken (token s : List Char) : Option (List Char) :=
  if token.isPrefixOf (Text.trimLeft s) then some ((Text.trimLeft s).drop token.length) else none

theorem length_of_afterToken {token s r : List Char} (ht : 0 < token.length) (h : afterToken token s = some r) :
    r.length < s.length := by
  unfold afterToken at h
  split at h
  · next hp =>
    obtain rfl := Option.some.inj h
    have := Text.length_trimLeft_le s
    have := (List.isPrefixOf_iff_prefix.1 hp).length_le
    simp only [List.length_drop]
    omega
  · simp at h

/-- The text up to the parenthesis that closes the one before it, where `depth` more are open, and the
rest after it. -/
def balanced (depth : Nat) : List Char → Option (List Char × List Char)
  | [] => none
  | c :: s =>
    if c = ')' then
      match depth with
      | 0 => some ([], s)
      | d + 1 => (balanced d s).map fun p => (c :: p.1, p.2)
    else (balanced (if c = '(' then depth + 1 else depth) s).map fun p => (c :: p.1, p.2)

theorem length_of_balanced {depth : Nat} {s : List Char} {p : List Char × List Char}
    (h : balanced depth s = some p) : p.2.length < s.length := by
  induction s generalizing depth p with
  | nil => simp [balanced] at h
  | cons c s ih =>
    simp only [balanced] at h
    split at h
    · split at h
      · obtain rfl := Option.some.inj h; simp
      · obtain ⟨q, hq, rfl⟩ := Option.map_eq_some_iff.1 h
        have := ih hq
        simp only [List.length_cons]
        omega
    · obtain ⟨q, hq, rfl⟩ := Option.map_eq_some_iff.1 h
      have := ih hq
      simp only [List.length_cons]
      omega

/-- The expression of a designator and its body, if there is such a designator. -/
def ofDesignator? (name body : List Char) : Option Expression :=
  if name = "execution".toList then some (ofExecutionChars body)
  else if name = "within".toList then some (type ⟨String.ofList (Text.trim body)⟩)
  else if name = "method".toList then some (method (String.ofList (Text.trim body)))
  else none

def readDesignator (s : List Char) : Read Expression s :=
  let t := Text.trimLeft s
  let name := t.takeWhile Text.isNameChar
  let r := t.dropWhile Text.isNameChar
  if name.isEmpty then .error ⟨t, "expected a designator"⟩
  else match he : afterToken ['('] r with
    | none => .error ⟨Text.trimLeft r, "expected '(' after designator"⟩
    | some b => match hb : balanced 0 b with
      | none => .error ⟨b, "unbalanced parentheses"⟩
      | some p => match ofDesignator? name p.1 with
        | some e =>
          have : p.2.length < s.length := by
            have h1 := length_of_balanced hb
            have h2 : b.length < r.length := length_of_afterToken (by decide) he
            have h3 : r.length ≤ t.length := (List.dropWhile_sublist _).length_le
            have h4 : t.length ≤ s.length := Text.length_trimLeft_le s
            omega
          .ok (e, ⟨p.2, this⟩)
        | none => .error ⟨p.2, "unsupported designator '" ++ String.ofList name ++ "'"⟩

mutual

def readUnary (s : List Char) : Read Expression s :=
  match hn : afterToken ['!'] s with
  | some r =>
    have := length_of_afterToken (by decide) hn
    match readUnary r with
    | .ok (e, r') => .ok (not e, ⟨r', by omega⟩)
    | .error stop => .error stop
  | none => match hp : afterToken ['('] s with
    | some r =>
      have := length_of_afterToken (by decide) hp
      match readOr r with
      | .ok (e, r') => match hc : afterToken [')'] r' with
        | some r'' =>
          have := length_of_afterToken (by decide) hc
          .ok (e, ⟨r'', by omega⟩)
        | none => .error ⟨Text.trimLeft r', "expected ')'"⟩
      | .error stop => .error stop
    | none => readDesignator s
termination_by (s.length, 0)

def readAnd (s : List Char) : Read Expression s :=
  match readUnary s with
  | .ok (e, r) => match readAndTail e r with
    | .ok (e, r') => .ok (e, ⟨r', by omega⟩)
    | .error stop => .error stop
  | .error stop => .error stop
termination_by (s.length, 1)

/-- Reads on after a conjunction; blanks that nothing follows are skipped. -/
def readAndTail (e : Expression) (s : List Char) :
    Except Stop (Expression × { r : List Char // r.length ≤ s.length }) :=
  match h : afterToken ['&', '&'] s with
  | some r =>
    have := length_of_afterToken (by decide) h
    match readUnary r with
    | .ok (f, r') => match readAndTail (and e f) r' with
      | .ok (e, r'') => .ok (e, ⟨r'', by omega⟩)
      | .error stop => .error stop
    | .error stop => .error stop
  | none => .ok (e, ⟨Text.trimLeft s, Text.length_trimLeft_le s⟩)
termination_by (s.length, 0)

def readOr (s : List Char) : Read Expression s :=
  match readAnd s with
  | .ok (e, r) => match readOrTail e r with
    | .ok (e, r') => .ok (e, ⟨r', by omega⟩)
    | .error stop => .error stop
  | .error stop => .error stop
termination_by (s.length, 2)

def readOrTail (e : Expression) (s : List Char) :
    Except Stop (Expression × { r : List Char // r.length ≤ s.length }) :=
  match h : afterToken ['|', '|'] s with
  | some r =>
    have := length_of_afterToken (by decide) h
    match readAnd r with
    | .ok (f, r') => match readOrTail (or e f) r' with
      | .ok (e, r'') => .ok (e, ⟨r'', by omega⟩)
      | .error stop => .error stop
    | .error stop => .error stop
  | none => .ok (e, ⟨Text.trimLeft s, Text.length_trimLeft_le s⟩)
termination_by (s.length, 0)

end

/-- The size of a text in UTF-8. -/
def byteLength (s : List Char) : Nat := s.foldl (fun n c => n + c.utf8Size) 0

/-- The fault for a stop: positions count the bytes before the rest. -/
def faultAt (input : List Char) (stop : Stop) : Fault :=
  .config ("invalid pointcut expression '" ++ String.ofList input ++ "' at " ++
    toString (byteLength input - byteLength stop.rest) ++ ": " ++ stop.message)

def parseChars (s : List Char) : Except Fault Expression :=
  match readOr s with
  | .ok (e, r) =>
    if (Text.trimLeft r).isEmpty then .ok e
    else .error (faultAt s ⟨Text.trimLeft r, "unexpected trailing input"⟩)
  | .error stop => .error (faultAt s stop)

def parse (s : String) : Except Fault Expression := parseChars s.toList

end Weaving.Expression
