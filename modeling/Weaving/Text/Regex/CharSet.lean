/-! Sets of characters: ranges, complements, and two sets under an operator. -/
namespace Weaving

inductive CharSet.Operator
  | union
  | intersection
  | difference
  | symmetricDifference
  deriving DecidableEq, Repr

inductive CharSet
  | empty
  | range (low high : Char)
  | complement (a : CharSet)
  | combine (o : CharSet.Operator) (a b : CharSet)
  deriving DecidableEq, Repr

namespace CharSet

/-- Whether a character is in the result, when it is known whether it is in the left set and in the
right one. -/
def Operator.apply : Operator → Bool → Bool → Bool
  | union, l, r => l || r
  | intersection, l, r => l && r
  | difference, l, r => l && !r
  | symmetricDifference, l, r => l != r

def has (c : Char) : CharSet → Bool
  | empty => false
  | range low high => low ≤ c && c ≤ high
  | complement a => !has c a
  | combine o a b => o.apply (has c a) (has c b)

def single (c : Char) : CharSet := range c c

def either (a b : CharSet) : CharSet := combine .union a b

def ofRanges (ranges : List (Char × Char)) : CharSet :=
  ranges.foldr (fun r s => either (range r.1 r.2) s) empty

/-- The sets of ASCII characters that have a name. -/
def named? : String → Option CharSet
  | "alnum" => some (ofRanges [('0', '9'), ('A', 'Z'), ('a', 'z')])
  | "alpha" => some (ofRanges [('A', 'Z'), ('a', 'z')])
  | "ascii" => some (range '\x00' '\x7f')
  | "blank" => some (ofRanges [('\t', '\t'), (' ', ' ')])
  | "cntrl" => some (ofRanges [('\x00', '\x1f'), ('\x7f', '\x7f')])
  | "digit" => some (range '0' '9')
  | "graph" => some (range '!' '~')
  | "lower" => some (range 'a' 'z')
  | "print" => some (range ' ' '~')
  | "punct" => some (ofRanges [('!', '/'), (':', '@'), ('[', '\x60'), ('\x7b', '~')])
  | "space" => some (ofRanges [('\t', '\r'), (' ', ' ')])
  | "upper" => some (range 'A' 'Z')
  | "word" => some (ofRanges [('0', '9'), ('A', 'Z'), ('_', '_'), ('a', 'z')])
  | "xdigit" => some (ofRanges [('0', '9'), ('A', 'F'), ('a', 'f')])
  | _ => none

example : ((named? "xdigit").map (has 'g'), (named? "xdigit").map (has 'F')) =
    (some false, some true) := by decide

end CharSet
end Weaving
