import Mathlib.Data.String.Basic
import Weaving.Proofs.Expression.Grammar

/-! Scanning expressions. Where a reader hands on what is left of the input, a scanner keeps the whole input
and a byte position in it, and all that it looks at are slices of the input. A slice may be out of range, and
calls may be nested too deep: nothing in the definitions rules out either. What a scanner gives is proved to
be what the parser gives. -/
namespace Weaving.Expression

/-- Cuts a text after some bytes, if they are characters of it. -/
def splitAtByte : Nat → List Char → Option (List Char × List Char)
  | 0, s => some ([], s)
  | _ + 1, [] => none
  | n + 1, c :: s =>
    if c.utf8Size ≤ n + 1 then (splitAtByte (n + 1 - c.utf8Size) s).map fun p => (c :: p.1, p.2)
    else none

/-- The part of a text from one byte to another. -/
def slice (start stop : Nat) (s : List Char) : Option (List Char) :=
  if start ≤ stop then
    (splitAtByte start s).bind fun p => (splitAtByte (stop - start) p.2).map Prod.fst
  else none

/-- The byte where the first character of a kind stands. -/
def findByte (p : Char → Bool) : List Char → Option Nat
  | [] => none
  | c :: s => if p c then some 0 else (findByte p s).map (· + c.utf8Size)

/-- The byte where the parenthesis stands that closes the last of those that are open. -/
def closingByte (depth : Nat) : List Char → Option Nat
  | [] => none
  | c :: s =>
    if c = '(' then (closingByte (depth + 1) s).map (· + c.utf8Size)
    else if c = ')' then
      if depth - 1 = 0 then some 0 else (closingByte (depth - 1) s).map (· + c.utf8Size)
    else (closingByte depth s).map (· + c.utf8Size)

/-- Where a scanner stands in its input, where it has stood before, last places first, and the calls that
the scanner of unary phrases has made: where it was called itself, and where it has called. -/
structure Cursor where
  pos : Nat := 0
  passed : List Nat := []
  calls : List (Nat × Nat) := []

/-- All places where the scanner has stood. -/
def Cursor.trail (k : Cursor) : List Nat := k.pos :: k.passed

inductive Halt
  | fault (f : Fault)
  /-- A slice is not within the input, or cuts a character. -/
  | outOfRange

/-- A scanner whose calls are nested too deep gives nothing; one that halts still stands somewhere. -/
abbrev Scan := ExceptT Halt (StateT Cursor Option)

namespace Scan

def inRange {α : Type} : Option α → Scan α
  | some a => pure a
  | none => throw .outOfRange

def position : Scan Nat := return (← get).pos

def moveTo (p : Nat) : Scan Unit := modify fun k => { k with pos := p, passed := k.pos :: k.passed }

/-- Notes a call from a scanner that started at a place. -/
def noteCall (start : Nat) : Scan Unit := modify fun k => { k with calls := (start, k.pos) :: k.calls }

variable (input : List Char)

def fail {α : Type} (message : String) : Scan α := do
  throw (.fault (.config ("invalid pointcut expression '" ++ String.ofList input ++ "' at " ++
    toString (← position) ++ ": " ++ message)))

def rest : Scan (List Char) := do inRange ((splitAtByte (← position) input).map Prod.snd)

def skipBlanks : Scan Unit := do
  let trimmed := Text.trimLeft (← rest input)
  moveTo (byteLength input - byteLength trimmed)

/-- Skips blanks, and a token if it comes next. -/
def eat (token : List Char) : Scan Bool := do
  skipBlanks input
  if token.isPrefixOf (← rest input) then
    moveTo ((← position) + byteLength token)
    return true
  else return false

def balancedBody : Scan (List Char) := do
  let start ← position
  match closingByte 1 (← rest input) with
  | some n =>
    let body ← inRange (slice start (start + n) input)
    moveTo (start + n + 1)
    return body
  | none => fail input "unbalanced parentheses"

def designator : Scan Expression := do
  skipBlanks input
  let s ← rest input
  let size := (findByte (fun c => !Text.isNameChar c) s).getD (byteLength s)
  if size = 0 then fail input "expected a designator"
  else
    let name ← inRange ((splitAtByte size s).map Prod.fst)
    moveTo ((← position) + size)
    if ← eat input ['('] then
      let body ← balancedBody input
      match ofDesignator? name body with
      | some e => return e
      | none => fail input ("unsupported designator '" ++ String.ofList name ++ "'")
    else fail input "expected '(' after designator"

def tooDeep {α : Type} : Scan α := fun _ => none

/-! The scanners of all levels, whose calls and loops may be nested up to a depth. -/

mutual

def unary : Nat → Scan Expression
  | 0 => tooDeep
  | depth + 1 => do
    let start ← position
    if ← eat input ['!'] then
      noteCall start
      return .not (← unary depth)
    else if ← eat input ['('] then
      noteCall start
      let e ← disjunction depth
      if ← eat input [')'] then return e
      else fail input "expected ')'"
    else designator input

def conjunction : Nat → Scan Expression
  | 0 => tooDeep
  | depth + 1 => do conjunctionTail depth (← unary depth)

def conjunctionTail : Nat → Expression → Scan Expression
  | 0, _ => tooDeep
  | depth + 1, e => do
    if ← eat input ['&', '&'] then conjunctionTail depth (.and e (← unary depth)) else return e

def disjunction : Nat → Scan Expression
  | 0 => tooDeep
  | depth + 1 => do disjunctionTail depth (← conjunction depth)

def disjunctionTail : Nat → Expression → Scan Expression
  | 0, _ => tooDeep
  | depth + 1, e => do
    if ← eat input ['|', '|'] then disjunctionTail depth (.or e (← conjunction depth)) else return e

end

/-- Scans a disjunction that is all of the input. -/
def whole (depth : Nat) : Scan Expression := do
  let e ← disjunction input depth
  skipBlanks input
  if (← position) < byteLength input then fail input "unexpected trailing input" else return e

variable {α β : Type} {f f' : Scan α} {g g' : α → Scan β} {a : α} {h : Halt} {k k' : Cursor} {input}

theorem run_bind_ok (hf : f.run.run k = some (.ok a, k')) : (f >>= g).run.run k = (g a).run.run k' := by
  change (f.run.run k).bind _ = _
  rw [hf]
  rfl

theorem run_bind_error (hf : f.run.run k = some (.error h, k')) :
    (f >>= g).run.run k = some (.error h, k') := by
  change (f.run.run k).bind _ = _
  rw [hf]
  rfl

theorem run_bind_tooDeep (hf : f.run.run k = none) : (f >>= g).run.run k = none := by
  change (f.run.run k).bind _ = _
  rw [hf]
  rfl

/-- A scanner does what another does, unless that other is nested too deep. -/
def Below (f f' : Scan α) : Prop := ∀ k y, f.run.run k = some y → f'.run.run k = some y

namespace Below

theorem refl (f : Scan α) : Below f f := fun _ _ hf => hf

theorem trans {f'' : Scan α} (hf : Below f f') (hf' : Below f' f'') : Below f f'' :=
  fun k y h => hf' k y (hf k y h)

theorem tooDeep (f : Scan α) : Below Scan.tooDeep f := nofun

theorem bind (hf : Below f f') (hg : ∀ a, Below (g a) (g' a)) : Below (f >>= g) (f' >>= g') := by
  intro k y hy
  cases hrun : f.run.run k with
  | none =>
    rw [run_bind_tooDeep hrun] at hy
    contradiction
  | some p =>
    obtain ⟨x, k'⟩ := p
    cases x with
    | error h => rwa [run_bind_error (hf k _ hrun), ← run_bind_error hrun]
    | ok a =>
      rw [run_bind_ok hrun] at hy
      rw [run_bind_ok (hf k _ hrun)]
      exact hg a k' y hy

theorem ite {c : Prop} [Decidable c] {e e' : Scan α} (hf : Below f f') (he : Below e e') :
    Below (if c then f else e) (if c then f' else e') := by
  split
  · exact hf
  · exact he

end Below

/-- With more depth the scanners of all levels do the same. -/
structure Deepened (input : List Char) (depth : Nat) : Prop where
  unary : Below (unary input depth) (unary input (depth + 1))
  conjunction : Below (conjunction input depth) (conjunction input (depth + 1))
  conjunctionTail (e : Expression) :
    Below (conjunctionTail input depth e) (conjunctionTail input (depth + 1) e)
  disjunction : Below (disjunction input depth) (disjunction input (depth + 1))
  disjunctionTail (e : Expression) :
    Below (disjunctionTail input depth e) (disjunctionTail input (depth + 1) e)

theorem deepened (input : List Char) (depth : Nat) : Deepened input depth := by
  induction depth with
  | zero => exact ⟨.tooDeep _, .tooDeep _, fun _ => .tooDeep _, .tooDeep _, fun _ => .tooDeep _⟩
  | succ depth ih =>
    constructor
    case unary =>
      rw [Scan.unary, Scan.unary]
      refine .bind (.refl _) fun start => .bind (.refl _) fun _ => .ite ?_ ?_
      · exact .bind (.refl _) fun _ => .bind ih.unary fun _ => .refl _
      · refine .bind (.refl _) fun _ => .ite ?_ (.refl _)
        exact .bind (.refl _) fun _ => .bind ih.disjunction fun _ => .refl _
    case conjunction =>
      rw [Scan.conjunction, Scan.conjunction]
      exact .bind ih.unary fun e => ih.conjunctionTail e
    case conjunctionTail =>
      intro e
      rw [Scan.conjunctionTail, Scan.conjunctionTail]
      exact .bind (.refl _) fun _ => .ite (.bind ih.unary fun f => ih.conjunctionTail _) (.refl _)
    case disjunction =>
      rw [Scan.disjunction, Scan.disjunction]
      exact .bind ih.conjunction fun e => ih.disjunctionTail e
    case disjunctionTail =>
      intro e
      rw [Scan.disjunctionTail, Scan.disjunctionTail]
      exact .bind (.refl _) fun _ => .ite (.bind ih.conjunction fun f => ih.disjunctionTail _) (.refl _)

theorem whole_below {depth depth' : Nat} (hdepth : depth ≤ depth') :
    Below (whole input depth) (whole input depth') := by
  induction hdepth with
  | refl => exact .refl _
  | step _ ih => exact ih.trans (.bind (deepened input _).disjunction fun _ => .refl _)

end Scan

variable {s t r : List Char} {n depth : Nat} {p : Char → Bool}

theorem byteLength_eq (s : List Char) : byteLength s = String.utf8Len s := by
  suffices h : ∀ n, s.foldl (fun n c => n + c.utf8Size) n = n + String.utf8Len s by
    simpa [byteLength] using h 0
  induction s with
  | nil => simp
  | cons c s ih =>
    intro n
    rw [List.foldl_cons, ih, String.utf8Len_cons]
    omega

@[simp] theorem byteLength_append (s t : List Char) :
    byteLength (s ++ t) = byteLength s + byteLength t := by
  simp [byteLength_eq]

theorem byteLength_cons (c : Char) (s : List Char) :
    byteLength (c :: s) = byteLength s + c.utf8Size := by
  simp [byteLength_eq]

theorem byteLength_eq_zero : byteLength s = 0 ↔ s = [] := by
  simp [byteLength_eq]

/-- A text can be cut just where a character begins, and at its end. -/
theorem splitAtByte_eq_some : splitAtByte n s = some (t, r) ↔ s = t ++ r ∧ byteLength t = n := by
  induction s generalizing n t with
  | nil => cases n <;> cases t <;> simp [splitAtByte, byteLength_eq, eq_comm]
  | cons c s ih =>
    cases n with
    | zero =>
      rw [byteLength_eq_zero]
      cases t <;> simp [splitAtByte, eq_comm]
    | succ n =>
      cases t with
      | nil => simp [splitAtByte, byteLength_eq]
      | cons d t =>
        rw [splitAtByte, byteLength_cons, List.cons_append, List.cons.injEq]
        constructor
        · intro h
          split at h
          next hc =>
            obtain ⟨rfl, hsplit⟩ := map_cons_eq_some.mp h
            obtain ⟨rfl, ht⟩ := ih.mp hsplit
            exact ⟨⟨rfl, rfl⟩, by omega⟩
          next => contradiction
        · rintro ⟨⟨rfl, rfl⟩, ht⟩
          rw [if_pos (by omega), map_cons_eq_some]
          exact ⟨rfl, ih.mpr ⟨rfl, by omega⟩⟩

theorem splitAtByte_append (t r : List Char) : splitAtByte (byteLength t) (t ++ r) = some (t, r) :=
  splitAtByte_eq_some.mpr ⟨rfl, rfl⟩

theorem slice_append (s t r : List Char) :
    slice (byteLength s) (byteLength s + byteLength t) (s ++ (t ++ r)) = some t := by
  rw [slice, if_pos (Nat.le_add_right _ _), splitAtByte_append, Option.bind_some, Nat.add_sub_cancel_left,
    splitAtByte_append]
  rfl

/-- The first characters of a text that are not of a kind end where another stands, or at its end. -/
theorem findByte_not (p : Char → Bool) (s : List Char) :
    (findByte (fun c => !p c) s).getD (byteLength s) = byteLength (s.takeWhile p) := by
  induction s with
  | nil => rfl
  | cons c s ih =>
    cases hc : p c with
    | false => simp [findByte, hc, byteLength_eq]
    | true =>
      rw [List.takeWhile_cons_of_pos hc, byteLength_cons, byteLength_cons, ← ih]
      cases hfind : findByte (fun c => !p c) s <;> simp [findByte, hc, hfind]

/-- The body of a designator ends where its parenthesis is closed. -/
theorem closingByte_eq (depth : Nat) (s : List Char) :
    closingByte (depth + 1) s = (balanced depth s).map fun p => byteLength p.1 := by
  induction s generalizing depth with
  | nil => rfl
  | cons c s ih =>
    by_cases hopen : c = '('
    · subst hopen
      simp [closingByte, balanced, ih, Function.comp_def, byteLength_cons]
    by_cases hclose : c = ')'
    · subst hclose
      cases depth with
      | zero => rfl
      | succ d => simp [closingByte, balanced, ih, Function.comp_def, byteLength_cons]
    · simp [closingByte, balanced, hopen, hclose, ih, Function.comp_def, byteLength_cons]

end Weaving.Expression
