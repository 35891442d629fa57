import Weaving.Text.Regex.CharSet

/-! Regular expressions with anchors, searched for anywhere in a text. A search reads the text once and
marks, in the expression, the sets that may have matched the character just read. -/
namespace Weaving

inductive Regex
  | empty
  | start
  | stop
  /-- One character of a set, marked if that may be the character just read. -/
  | set (marked : Bool) (chars : CharSet)
  | seq (a b : Regex)
  | alt (a b : Regex)
  | star (a : Regex)
  | plus (a : Regex)
  deriving DecidableEq, Repr

namespace Regex

/-- Whether the empty text is matched at a place of which it is known whether it is the start and
the end of the whole text. -/
def nullable (atStart atEnd : Bool) : Regex → Bool
  | empty => true
  | start => atStart
  | stop => atEnd
  | set _ _ => false
  | seq a b => nullable atStart atEnd a && nullable atStart atEnd b
  | alt a b => nullable atStart atEnd a || nullable atStart atEnd b
  | star _ => true
  | plus a => nullable atStart atEnd a

/-- Whether a match with the character just read may end here. -/
def ends (atEnd : Bool) : Regex → Bool
  | empty | start | stop => false
  | set marked _ => marked
  | seq a b => ends atEnd b || ends atEnd a && nullable false atEnd b
  | alt a b => ends atEnd a || ends atEnd b
  | star a | plus a => ends atEnd a

/-- Reads a character, before which a match of the expression may begin or may not. -/
def read (atStart begins : Bool) (c : Char) : Regex → Regex
  | empty => empty
  | start => start
  | stop => stop
  | set _ chars => set (begins && chars.has c) chars
  | seq a b =>
    seq (read atStart begins c a)
      (read atStart (ends false a || begins && nullable atStart false a) c b)
  | alt a b => alt (read atStart begins c a) (read atStart begins c b)
  | star a => star (read atStart (begins || ends false a) c a)
  | plus a => plus (read atStart (begins || ends false a) c a)

/-- Whether a match ends here or at a later place. -/
def searchFrom (r : Regex) (atStart : Bool) : List Char → Bool
  | [] => nullable atStart true r || ends true r
  | c :: s => nullable atStart false r || ends false r || searchFrom (read atStart true c r) false s

/-- Whether the expression is matched by some part of the text. -/
def search (r : Regex) (text : String) : Bool := searchFrom r true text.toList

def chars (set : CharSet) : Regex := .set false set

def char (c : Char) : Regex := chars (.single c)

/-- Any character but a line feed. -/
def any : Regex := chars (.complement (.single '\n'))

def optional (a : Regex) : Regex := alt a empty

example : searchFrom (seq start (seq (char 'a') stop)) true ['a'] = true := by decide
example : searchFrom (seq (char 'a') stop) true ['a', 'b'] = false := by decide
example : searchFrom (seq (star (star (char 'a'))) stop) true ['b', 'a'] = true := by decide

end Regex
end Weaving
