import Weaving.Text.Regex.CharSet
import Weaving.Text.Regex.Nested

/-! Reading sets of characters in brackets. A set has characters, ranges, named sets and further sets
in brackets, and all of these after a caret are what it lacks. Two signs in a row are an operator
between what stands before and what stands after, and operators group to the left. -/
namespace Weaving

/-- The character that a character after a backslash stands for: a control for some letters, and itself
for ASCII characters that are neither letters nor digits nor angle brackets. -/
def escaped? (c : Char) : Option Char :=
  match c with
  | 'a' => some '\x07'
  | 'f' => some '\x0c'
  | 'n' => some '\n'
  | 'r' => some '\r'
  | 't' => some '\t'
  | 'v' => some '\x0b'
  | c => if c.toNat < 128 ∧ c.isAlphanum = false ∧ c ≠ '<' ∧ c ≠ '>' then some c else none

/-- A set in brackets of which a part has been read. -/
structure Bracket where
  negated : Bool
  /-- An operator and the set before it. -/
  left : Option (CharSet.Operator × Nested CharSet) := none
  items : List (Nested CharSet)

namespace Bracket

def push (b : Bracket) (x : Nested CharSet) : Bracket := { b with items := b.items ++ [x] }

/-- What has been read so far, the operator before it applied. -/
def body (b : Bracket) : Nested CharSet :=
  let right := Nested.join .empty .either b.items
  match b.left with
  | none => right
  | some (o, l) => .wrap id (.fold (.combine o) l [right])

def operator (b : Bracket) (o : CharSet.Operator) : Bracket :=
  { b with left := some (o, b.body), items := [] }

def close (b : Bracket) : Nested CharSet :=
  b.body.wrap fun s => if b.negated then .complement s else s

/-- Whether there is a caret in front, and what follows it. -/
def readCaret : List Char → Bool × List Char
  | '^' :: s => (true, s)
  | s => (false, s)

/-- Opens a set after its bracket: hyphens in front stand for themselves, and so does a closing
bracket that comes first. -/
def openSet (s : List Char) : Bracket × List Char :=
  let negated := (readCaret s).1
  match (readCaret s).2 with
  | ']' :: s => ({ negated, items := [.leaf (.single ']')] }, s)
  | s => ({ negated, items := (s.takeWhile (· = '-')).map fun c => .leaf (.single c) },
      s.dropWhile (· = '-'))

/-- A named set between colons, read after its bracket; a caret before the name negates it. -/
def readNamed : List Char → Option (Nested CharSet × List Char)
  | ':' :: s =>
    let (negated, s) := readCaret s
    match CharSet.named? (String.ofList (s.takeWhile (· ≠ ':'))), s.dropWhile (· ≠ ':') with
    | some set, ':' :: ']' :: r => some (.leaf (if negated then .complement set else set), r)
    | _, _ => none
  | _ => none

/-- A character of a set, perhaps escaped. -/
def readChar : List Char → Option (Char × List Char)
  | [] | ['\\'] => none
  | '\\' :: c :: s => (escaped? c).map fun d => (d, s)
  | c :: s => some (c, s)

/-- A character or a range. A hyphen makes a range unless the set ends or a second hyphen follows. -/
def readRange (s : List Char) : Option (Nested CharSet × List Char) :=
  match readChar s with
  | none => none
  | some (low, '-' :: d :: s) =>
    if d = ']' ∨ d = '-' then some (.leaf (.single low), '-' :: d :: s)
    else match readChar (d :: s) with
      | some (high, s) => if low ≤ high then some (.leaf (.range low high), s) else none
      | none => none
  | some (low, s) => some (.leaf (.single low), s)

theorem length_of_readCaret (s : List Char) : (readCaret s).2.length ≤ s.length := by
  fun_cases readCaret s <;> simp

theorem length_of_openSet (s : List Char) : (openSet s).2.length ≤ s.length := by
  have caret := length_of_readCaret s
  fun_cases openSet s
  next h => simp_all; omega
  next => exact Nat.le_trans (List.dropWhile_suffix _).length_le caret

theorem length_of_readNamed {s : List Char} {p : Nested CharSet × List Char}
    (h : readNamed s = some p) : p.2.length < s.length := by
  unfold readNamed at h
  split at h
  next s =>
    have caret := length_of_readCaret s
    have name := (List.dropWhile_suffix (l := (readCaret s).2) (· ≠ ':')).length_le
    grind
  next => contradiction

theorem length_of_readChar {s : List Char} {p : Char × List Char} (h : readChar s = some p) :
    p.2.length < s.length := by
  unfold readChar at h
  split at h <;> grind [Option.map_eq_some_iff]

theorem length_of_readRange {s : List Char} {p : Nested CharSet × List Char}
    (h : readRange s = some p) : p.2.length < s.length := by
  unfold readRange at h
  split at h
  next => contradiction
  next low =>
    have := length_of_readChar low
    split at h
    next => grind
    next =>
      split at h
      next high =>
        have := length_of_readChar high
        grind
      next => contradiction
  next low =>
    have := length_of_readChar low
    grind

/-- Reads on inside the brackets that are open, the innermost apart, up to the end of the outermost. -/
def readItems (outer : List Bracket) (b : Bracket) (s : List Char) :
    Option (Nested CharSet × List Char) :=
  match s with
  | [] => none
  | '[' :: s =>
    match h : readNamed s with
    | some p =>
      have := length_of_readNamed h
      readItems outer (b.push p.1) p.2
    | none =>
      have := length_of_openSet s
      readItems (b :: outer) (openSet s).1 (openSet s).2
  | ']' :: s => match outer with
    | [] => some (b.close, s)
    | o :: outer => readItems outer (o.push b.close) s
  | '&' :: '&' :: s => readItems outer (b.operator .intersection) s
  | '-' :: '-' :: s => readItems outer (b.operator .difference) s
  | '~' :: '~' :: s => readItems outer (b.operator .symmetricDifference) s
  | s =>
    match h : readRange s with
    | none => none
    | some p =>
      have := length_of_readRange h
      readItems outer (b.push p.1) p.2
termination_by s.length
decreasing_by all_goals grind

/-- A set in brackets, read after its opening bracket. -/
def readSet (s : List Char) : Option (Nested CharSet × List Char) :=
  readItems [] (openSet s).1 (openSet s).2

theorem length_of_readItems {outer : List Bracket} {b : Bracket} {s : List Char}
    {p : Nested CharSet × List Char} (h : readItems outer b s = some p) : p.2.length < s.length := by
  fun_induction readItems outer b s <;> grind

theorem length_of_readSet {s : List Char} {p : Nested CharSet × List Char} (h : readSet s = some p) :
    p.2.length < s.length :=
  Nat.lt_of_lt_of_le (length_of_readItems h) (length_of_openSet s)

end Bracket
end Weaving
