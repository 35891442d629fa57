import Weaving.Text.Split

/-! Wildcard patterns: a star stands for any text, every other character for itself. The pieces
between the stars are sought from left to right, the outer two at the ends of the text. -/
namespace Weaving.Glob

/-- What follows the leftmost occurrence of a piece. -/
def after (piece : List Char) : List Char → Option (List Char)
  | [] => if piece = [] then some [] else none
  | c :: s => if piece.isPrefixOf (c :: s) then some ((c :: s).drop piece.length) else after piece s

/-- The pieces occur in the text one after the other, without overlap. -/
def inOrder : List (List Char) → List Char → Bool
  | [], _ => true
  | p :: ps, s => match after p s with
    | some r => inOrder ps r
    | none => false

def acceptsChars (pattern text : List Char) : Bool :=
  match Text.split '*' pattern with
  | [] => false
  | [whole] => whole = text
  | first :: rest =>
    let last := rest.getLastD []
    first.length + last.length ≤ text.length && first.isPrefixOf text && last.isSuffixOf text &&
      inOrder rest.dropLast ((text.drop first.length).take (text.length - first.length - last.length))

/-- Whether a pattern stands for a text. -/
def accepts (pattern text : String) : Bool := acceptsChars pattern.toList text.toList

/-- A pattern without stars stands for itself alone. -/
theorem accepts_iff_eq {pattern text : String} (h : '*' ∉ pattern.toList) :
    accepts pattern text = true ↔ pattern = text := by
  simp [accepts, acceptsChars, Text.split_of_not_mem h, String.toList_inj]

def anyAccepts (patterns : List String) (text : String) : Bool :=
  patterns.any fun p => accepts p text

example : acceptsChars "a*b*c".toList "a-b-c".toList = true := by decide
example : acceptsChars "ab*ba".toList "aba".toList = false := by decide

end Weaving.Glob
