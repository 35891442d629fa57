import Weaving.Toml

/-! The words of TOML: blanks and comments, keys, strings, numbers, dates and times. Each reader gives
what it has read and the rest of the input, or nothing. -/
namespace Weaving.Toml

abbrev Reader (α : Type) := List Char → Option (α × List Char)

def isSpace (c : Char) : Bool := c = ' ' || c = '\t'

def skipSpace (s : List Char) : List Char := s.dropWhile isSpace

/-- Characters that comments and literal strings may have, quotes apart. -/
def isPlain (c : Char) : Bool := c = '\t' || (32 ≤ c.toNat && c.toNat ≠ 127)

/-- Skips a comment, if there is one. -/
def skipComment : List Char → List Char
  | '#' :: s => s.dropWhile isPlain
  | s => s

/-- The rest after a line end. -/
def lineEnd? : List Char → Option (List Char)
  | '\n' :: s => some s
  | '\r' :: '\n' :: s => some s
  | _ => none

/-- Skips blanks, comments and line ends; at most `n` lines. -/
def skipLines : Nat → List Char → List Char
  | 0, s => s
  | n + 1, s =>
    match lineEnd? (skipComment (skipSpace s)) with
    | some r => skipLines n r
    | none => skipComment (skipSpace s)

def skipTrivia (s : List Char) : List Char := skipLines (s.length + 1) s

def hexValue? (c : Char) : Option Nat :=
  if c.isDigit then some (c.toNat - '0'.toNat)
  else if 'a' ≤ c ∧ c ≤ 'f' then some (c.toNat - 'a'.toNat + 10)
  else if 'A' ≤ c ∧ c ≤ 'F' then some (c.toNat - 'A'.toNat + 10)
  else none

/-- A character given by exactly `n` hexadecimal digits. -/
def readCodePoint (n : Nat) (s : List Char) : Option (Char × List Char) := do
  let digits ← (s.take n).mapM hexValue?
  if digits.length < n then none
  else
    let code := digits.foldl (fun a d => 16 * a + d) 0
    if code < 0xd800 ∨ (0xdfff < code ∧ code < 0x110000) then some (Char.ofNat code, s.drop n)
    else none

/-- The character that an escape stands for, read after the backslash. -/
def readEscape : List Char → Option (Char × List Char)
  | 'b' :: s => some ('\x08', s)
  | 't' :: s => some ('\t', s)
  | 'n' :: s => some ('\n', s)
  | 'f' :: s => some ('\x0c', s)
  | 'r' :: s => some ('\r', s)
  | '"' :: s => some ('"', s)
  | '\\' :: s => some ('\\', s)
  | 'u' :: s => readCodePoint 4 s
  | 'U' :: s => readCodePoint 8 s
  | _ => none

/-- A string in double quotes, read after the first; `n` bounds its length. -/
def readBasic (n : Nat) (found : List Char) (s : List Char) : Option (String × List Char) :=
  match n, s with
  | 0, _ | _, [] => none
  | n + 1, c :: s =>
    if c = '"' then some (String.ofList found.reverse, s)
    else if c = '\\' then (readEscape s).bind fun p => readBasic n (p.1 :: found) p.2
    else if isPlain c then readBasic n (c :: found) s
    else none

/-- A string in single quotes, read after the first. -/
def readLiteral (s : List Char) : Option (String × List Char) :=
  let body := s.takeWhile fun c => isPlain c && c ≠ '\''
  match s.drop body.length with
  | '\'' :: r => some (String.ofList body, r)
  | _ => none

/-- How many times a character stands at the front. -/
def countFront (c : Char) (s : List Char) : Nat := (s.takeWhile (· = c)).length

/-- The end of a string in triple quotes: of up to five quotes the last three close it. -/
def closing? (quote : Char) (found : List Char) (s : List Char) : Option (String × List Char) :=
  let k := min (countFront quote s) 5
  if 3 ≤ k then
    some (String.ofList (found.reverse ++ List.replicate (k - 3) quote), s.drop k)
  else none

/-- Skips blanks and line ends, as after a backslash at the end of a line. -/
def skipFold : List Char → List Char
  | ' ' :: s | '\t' :: s | '\n' :: s | '\r' :: '\n' :: s => skipFold s
  | s => s

/-- A string of many lines in triple double quotes, read after them. -/
def readLongBasic (n : Nat) (found : List Char) (s : List Char) : Option (String × List Char) :=
  match n, s with
  | 0, _ | _, [] => none
  | n + 1, c :: s =>
    match closing? '"' found (c :: s) with
    | some r => some r
    | none =>
      if c = '\\' then
        match lineEnd? (skipSpace s) with
        | some r => readLongBasic n found (skipFold r)
        | none => (readEscape s).bind fun p => readLongBasic n (p.1 :: found) p.2
      else match lineEnd? (c :: s) with
        | some r => readLongBasic n ('\n' :: found) r
        | none => if isPlain c then readLongBasic n (c :: found) s else none

/-- A string of many lines in triple single quotes, read after them. -/
def readLongLiteral (n : Nat) (found : List Char) (s : List Char) : Option (String × List Char) :=
  match n, s with
  | 0, _ | _, [] => none
  | n + 1, c :: s =>
    match closing? '\'' found (c :: s) with
    | some r => some r
    | none => match lineEnd? (c :: s) with
      | some r => readLongLiteral n ('\n' :: found) r
      | none => if isPlain c then readLongLiteral n (c :: found) s else none

/-- Skips the line end that may follow opening triple quotes. -/
def skipFirstLineEnd (s : List Char) : List Char := (lineEnd? s).getD s

/-- A string of any kind. -/
def readText : Reader String
  | '"' :: '"' :: '"' :: s => readLongBasic (s.length + 1) [] (skipFirstLineEnd s)
  | '\'' :: '\'' :: '\'' :: s => readLongLiteral (s.length + 1) [] (skipFirstLineEnd s)
  | '"' :: s => readBasic (s.length + 1) [] s
  | '\'' :: s => readLiteral s
  | _ => none

def isBareKey (c : Char) : Bool := c.isAlphanum || c = '_' || c = '-'

def readSimpleKey : Reader String
  | '"' :: s => readBasic (s.length + 1) [] s
  | '\'' :: s => readLiteral s
  | s =>
    let name := s.takeWhile isBareKey
    if name.isEmpty then none else some (String.ofList name, s.drop name.length)

/-- The keys after each further dot; at most `n`. -/
def readMoreKeys : Nat → Reader (List String)
  | 0, _ => none
  | n + 1, s =>
    match skipSpace s with
    | '.' :: r => do
      let (key, r) ← readSimpleKey (skipSpace r)
      let (keys, r) ← readMoreKeys n r
      return (key :: keys, r)
    | r => some ([], r)

/-- How deeply values may be nested, and how many parts a key may have. -/
def maxDepth : Nat := 79

/-- A key with dots, and the blanks around it: the path to it and its last part. -/
def readKey (s : List Char) : Option ((List String × String) × List Char) := do
  let (key, r) ← readSimpleKey (skipSpace s)
  let (keys, r) ← readMoreKeys (s.length + 1) r
  if keys.length < maxDepth then return (((key :: keys).dropLast, (key :: keys).getLastD key), r)
  else none

/-- Digits with single underscores between them: their values, and the rest. -/
def readDigits (value? : Char → Option Nat) (s : List Char) : Option (List Nat × List Char) :=
  match s with
  | [] => none
  | c :: s => match value? c with
    | none => none
    | some d => some (more d s)
where
  /-- The digits that follow a first one. -/
  more (d : Nat) : List Char → List Nat × List Char
    | '_' :: c :: s => match value? c with
      | some e => let r := more e s; (d :: r.1, r.2)
      | none => ([d], '_' :: c :: s)
    | c :: s => match value? c with
      | some e => let r := more e s; (d :: r.1, r.2)
      | none => ([d], c :: s)
    | [] => ([d], [])

def digitBelow? (base : Nat) (c : Char) : Option Nat := (hexValue? c).filter (· < base)

def ofDigits (base : Nat) (ds : List Nat) : Nat := ds.foldl (fun a d => base * a + d) 0

/-- Integers have 64 bits. -/
def integer? (n : Int) : Option Toml :=
  if -9223372036854775808 ≤ n ∧ n ≤ 9223372036854775807 then some (.integer n) else none

/-- The fraction and the exponent of a float. -/
structure Fraction where
  digits : List Nat
  exponent : Int

/-- An exponent, if there is one. -/
def readExponent : List Char → Option (Option Int × List Char)
  | 'e' :: r | 'E' :: r => do
    let (negative, r) := match r with
      | '-' :: r => (true, r)
      | '+' :: r => (false, r)
      | r => (false, r)
    let (ds, r) ← readDigits (digitBelow? 10) r
    let n : Int := ofDigits 10 ds
    return (some (if negative then -n else n), r)
  | r => some (none, r)

/-- The fraction and exponent of a float, if one of them is there. -/
def readFraction (s : List Char) : Option (Option Fraction × List Char) :=
  match s with
  | '.' :: r => do
    let (ds, r) ← readDigits (digitBelow? 10) r
    let (e, r) ← readExponent r
    return (some ⟨ds, e.getD 0⟩, r)
  | s => do
    let (e, r) ← readExponent s
    return (e.map fun e => ⟨[], e⟩, r)

/-- Whether a positive float is too large: at least half a unit in the last place above the largest
one of 64 bits. Digits after leading zeros fix the order of magnitude, so that no power is computed
that is far out of range. -/
def overflows (digits : List Nat) (f : Fraction) : Bool :=
  let ds := (digits ++ f.digits).dropWhile (· = 0)
  let magnitude : Int := ds.length + f.exponent - f.digits.length
  let e := f.exponent - f.digits.length
  if ds.isEmpty || magnitude < 300 then false
  else if 310 < magnitude then true
  else Nat.pow 2 1024 - Nat.pow 2 970 ≤ ofDigits 10 ds * Nat.pow 10 e.toNat / Nat.pow 10 (-e).toNat

/-- A decimal integer or a float, after its sign. Floats may be too small, but not too large. -/
def readDecimal (negative : Bool) (s : List Char) : Option (Toml × List Char) := do
  let (ds, r) ← readDigits (digitBelow? 10) s
  let (ds, r) := if ds.head? = some 0 then ([0], s.drop 1) else (ds, r)
  let (fraction, r) ← readFraction r
  match fraction with
  | some f => if !negative && overflows ds f then none else return (.float, r)
  | none =>
    let n : Int := ofDigits 10 ds
    return (← integer? (if negative then -n else n), r)

def readBased (base : Nat) (s : List Char) : Option (Toml × List Char) := do
  let (ds, r) ← readDigits (digitBelow? base) s
  return (← integer? (ofDigits base ds), r)

/-- The special floats. -/
def readSpecial : List Char → Option (Toml × List Char)
  | 'i' :: 'n' :: 'f' :: s | 'n' :: 'a' :: 'n' :: s => some (.float, s)
  | _ => none

def readNumber : Reader Toml
  | '0' :: 'x' :: s => readBased 16 s
  | '0' :: 'o' :: s => readBased 8 s
  | '0' :: 'b' :: s => readBased 2 s
  | '+' :: s => readSpecial s <|> readDecimal false s
  | '-' :: s => readSpecial s <|> readDecimal true s
  | s => readSpecial s <|> readDecimal false s

/-- A number of exactly `n` digits that is not below `low` nor above `high`. -/
def readField (n low high : Nat) (s : List Char) : Option (Nat × List Char) := do
  let ds ← (s.take n).mapM (digitBelow? 10)
  let v := ds.foldl (fun a d => 10 * a + d) 0
  if ds.length = n ∧ low ≤ v ∧ v ≤ high then some (v, s.drop n) else none

def readChar (c : Char) : List Char → Option (List Char)
  | d :: s => if c = d then some s else none
  | [] => none

def daysIn (year month : Nat) : Nat :=
  if month = 2 then
    if year % 4 = 0 ∧ (year % 100 ≠ 0 ∨ year % 400 = 0) then 29 else 28
  else if month = 4 ∨ month = 6 ∨ month = 9 ∨ month = 11 then 30 else 31

def readDate (s : List Char) : Option (List Char) := do
  let (year, s) ← readField 4 0 9999 s
  let (month, s) ← readField 2 1 12 (← readChar '-' s)
  let (_, s) ← readField 2 1 (daysIn year month) (← readChar '-' s)
  return s

def readTime (s : List Char) : Option (List Char) := do
  let (_, s) ← readField 2 0 23 s
  let (_, s) ← readField 2 0 59 (← readChar ':' s)
  let (_, s) ← readField 2 0 60 (← readChar ':' s)
  match s with
  | '.' :: r =>
    let digits := r.takeWhile Char.isDigit
    if digits.isEmpty then none else return r.drop digits.length
  | s => return s

def readOffset (s : List Char) : Option (List Char) :=
  match s with
  | 'Z' :: s | 'z' :: s => some s
  | '+' :: s | '-' :: s => do
    let (_, s) ← readField 2 0 23 s
    let (_, s) ← readField 2 0 59 (← readChar ':' s)
    return s
  | _ => none

/-- A time after a date, with an offset or without, if there is one. -/
def readTimeOfDay (s : List Char) : List Char :=
  match s with
  | c :: r =>
    if c = 'T' ∨ c = 't' ∨ c = ' ' then
      match readTime r with
      | some r => (readOffset r).getD r
      | none => s
    else s
  | [] => []

def readMoment : Reader Toml := fun s =>
  match readDate s with
  | some r => some (.moment, readTimeOfDay r)
  | none => (readTime s).map fun r => (.moment, r)

def readBool : Reader Toml
  | 't' :: 'r' :: 'u' :: 'e' :: s => some (.bool true, s)
  | 'f' :: 'a' :: 'l' :: 's' :: 'e' :: s => some (.bool false, s)
  | _ => none

end Weaving.Toml
