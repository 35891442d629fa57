import Weaving.Text.Regex
import Weaving.Text.Regex.Bracket

/-! Reading regular expressions: literals, the dot, sets in brackets, groups, alternatives, anchors,
escaped characters and the three repetitions. Everything else is refused: an operator with nothing
to repeat, a group or set left open, a closing parenthesis without its group, a set whose range runs
backwards, a lone backslash, the extensions that start with a brace or with a question mark after an
opening parenthesis, and a pattern whose parts are nested too deeply. -/
namespace Weaving.Regex

/-- A group that is being read: its finished alternatives and the items of the one at hand. -/
structure Group where
  finished : List (Nested Regex)
  items : List (Nested Regex)

namespace Group

def fresh : Group := ⟨[], []⟩

def push (g : Group) (x : Nested Regex) : Group := { g with items := g.items ++ [x] }

def nextAlternative (g : Group) : Group := ⟨g.finished ++ [.join .empty .seq g.items], []⟩

def close (g : Group) : Nested Regex := .join .empty .alt g.nextAlternative.finished

/-- Replaces the last item by its repetition. -/
def repeatLast (g : Group) (f : Regex → Regex) : Option Group :=
  g.items.getLast?.map fun x => { g with items := g.items.dropLast ++ [x.wrap f] }

end Group

/-- Skips the question mark that after a repetition asks for the shortest match. It does not change
whether there is one. -/
def skipLazy : List Char → List Char
  | '?' :: s => s
  | s => s

theorem length_of_skipLazy (s : List Char) : (skipLazy s).length ≤ s.length := by
  fun_cases skipLazy s <;> simp

/-- Reads on inside the groups that are open, the innermost apart. -/
def readFrom (outer : List Group) (g : Group) (s : List Char) : Option (Nested Regex) :=
  match s with
  | [] => if outer.isEmpty then some g.close else none
  | c :: s =>
    have := length_of_skipLazy s
    if c = '(' then
      if s.head? = some '?' then none else readFrom (g :: outer) .fresh s
    else if c = ')' then
      match outer with
      | [] => none
      | o :: outer => readFrom outer (o.push (g.close.wrap id)) s
    else if c = '|' then readFrom outer g.nextAlternative s
    else if c = '*' then (g.repeatLast .star).bind fun g => readFrom outer g (skipLazy s)
    else if c = '+' then (g.repeatLast .plus).bind fun g => readFrom outer g (skipLazy s)
    else if c = '?' then (g.repeatLast .optional).bind fun g => readFrom outer g (skipLazy s)
    else if c = '\x7b' then none
    else if c = '^' then readFrom outer (g.push (.leaf .start)) s
    else if c = '$' then readFrom outer (g.push (.leaf .stop)) s
    else if c = '.' then readFrom outer (g.push (.leaf .any)) s
    else if c = '\\' then
      match s with
      | [] => none
      | d :: s => (escaped? d).bind fun d => readFrom outer (g.push (.leaf (.char d))) s
    else if c = '[' then
      match h : Bracket.readSet s with
      | none => none
      | some p =>
        have := Bracket.length_of_readSet h
        readFrom outer (g.push ⟨.chars p.1.value, p.1.depth⟩) p.2
    else readFrom outer (g.push (.leaf (.char c))) s
termination_by s.length
decreasing_by all_goals grind

/-- How deeply the parts of a pattern may be nested. -/
def maxDepth : Nat := 250

/-- The regular expression a text denotes, if it denotes one. -/
def ofString? (pattern : String) : Option Regex := do
  let x ← readFrom [] .fresh pattern.toList
  if x.depth ≤ maxDepth then some x.value else none

end Weaving.Regex
