import Weaving.Expression
import Weaving.Text.Blank
import Weaving.Text.Split

/-! Execution patterns in their written form: modifiers and a return type, which decide nothing, then a
type, a method and parameters, as in "* UserService.save(..)". The method part begins with the first
word that has an opening parenthesis, or is the last word. -/
namespace Weaving.Expression

/-- Removes the closing parentheses at the end of a text. -/
def dropClosing (s : List Char) : List Char := (s.reverse.dropWhile (· = ')')).reverse

/-- The parameter patterns written between the parentheses; two dots alone stand for any. -/
def readParams (s : List Char) : Option (List String) :=
  let inner := Text.trim (dropClosing s)
  if inner = ['.', '.'] then none
  else if inner.isEmpty then some []
  else some ((Text.split ',' inner).map fun p => String.ofList (Text.trim p))

/-- The expression for a type and method name with parameters. A method without a type and for any
parameters is a method pattern. -/
def ofName (name : List Char) (params : Option (List String)) : Expression :=
  match Text.cutLast '.' name with
  | some (t, m) => execution ⟨String.ofList t⟩ (String.ofList m) params
  | none =>
    if params.isNone then method (String.ofList name)
    else execution ⟨"*"⟩ (String.ofList name) params

def ofMethodPart (s : List Char) : Expression :=
  match Text.cut '(' s with
  | some (name, rest) => ofName name (readParams rest)
  | none => ofName s none

/-- The words from the first that opens a parenthesis, with one space between them. -/
def methodPart (ws : List (List Char)) : Option (List Char) :=
  match ws.dropWhile fun w => !w.contains '(' with
  | [] => none
  | ws => some ([' '].intercalate ws)

def ofExecutionChars (s : List Char) : Expression :=
  let ws := Text.words s
  match methodPart ws with
  | some part => ofMethodPart part
  | none => match ws.getLast? with
    | some w => ofMethodPart w
    | none => all

def ofExecution (s : String) : Expression := ofExecutionChars s.toList

end Weaving.Expression
