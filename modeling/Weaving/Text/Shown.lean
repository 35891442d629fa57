import Weaving.Text.Quoted

/-! Written forms of things other than text: booleans, options, lists and records. A record is written
as its name and its fields between braces. -/
namespace Weaving.Text

def boolean (b : Bool) : String := if b then "true" else "false"

/-- An option of something that is written already. -/
def option : Option String → String
  | none => "None"
  | some s => "Some(" ++ s ++ ")"

/-- Written things, separated by commas. -/
def sequence (ss : List String) : String := ", ".intercalate ss

def list (ss : List String) : String := "[" ++ sequence ss ++ "]"

def quoteList (ss : List String) : String := list (ss.map quote)

def quoteOption (s : Option String) : String := option (s.map quote)

def record (name : String) (fields : List (String × String)) : String :=
  name ++ " \x7b " ++ sequence (fields.map fun f => f.1 ++ ": " ++ f.2) ++ " \x7d"

example : (record "Point" [("x", "1"), ("y", option none)]).toList =
    "Point \x7b x: 1, y: None \x7d".toList := by decide +kernel

end Weaving.Text
