import Weaving.Class
import Weaving.Text.Glob
import Weaving.Value

/-! Pointcut expressions: which methods of which classes they accept, with and without the arguments of
a call. Without arguments the parts that look at them count as accepting. -/
namespace Weaving

/-- A pattern that ends in a plus names a type and all its subtypes; any other is a wildcard. -/
structure TypePattern where
  text : String
  deriving DecidableEq, Repr

namespace TypePattern

/-- The pattern without any plus at its end. -/
def bare (p : TypePattern) : String :=
  String.ofList (p.text.toList.reverse.dropWhile (· = '+')).reverse

/-- The type whose subtypes the pattern names. -/
def root? (p : TypePattern) : Option String :=
  if p.text.toList.getLast? = some '+' then some (String.ofList p.text.toList.dropLast) else none

/-- Whether the pattern names a class: the class itself, a superclass or an interface. -/
def acceptsClass (p : TypePattern) (c : Class) : Bool :=
  match p.root? with
  | some root => c.provides root
  | none =>
    (c.lineage.any fun d => Glob.accepts p.text d.name) ||
      c.allInterfaces.any fun i => Glob.accepts p.text i

/-- Whether the pattern names the declaring type of a method or the class it is called on. -/
def acceptsMethod (p : TypePattern) (m : Method) (c : Option Class) : Bool :=
  Glob.accepts p.bare m.declaring || c.any p.acceptsClass

end TypePattern

/-- Whether a row has a true entry from each place on. -/
def trueFrom (row : List Bool) : List Bool :=
  row.foldr (fun b found => (b || found.headD false) :: found) []

/-- Whether the parameter types from each place on fit a list of patterns, in which two dots stand for
any number of parameters. The first entry is for all of the types and the last one for none. -/
def paramsFit (actual : List String) : List String → List Bool
  | [] => actual.map (fun _ => false) ++ [true]
  | p :: ps =>
    let rest := paramsFit actual ps
    if p = ".." then trueFrom rest
    else List.zipWith (fun a fits => Glob.accepts p a && fits) actual rest.tail ++ [false]

/-- Whether a list of parameter types fits a list of patterns. -/
def paramsAccept (patterns actual : List String) : Bool := (paramsFit actual patterns).headD false

inductive Expression
  | all
  | type (pattern : TypePattern)
  | method (pattern : String)
  | execution (type : TypePattern) (method : String) (params : Option (List String))
  | typeTest (test : String → Bool)
  | methodTest (test : String → Bool)
  | custom (test : Method → Option Class → Bool)
  | args (test : List Value → Bool)
  | and (a b : Expression)
  | or (a b : Expression)
  | not (a : Expression)
  deriving Inhabited

namespace Expression

/-- Whether the expression has a part that looks at arguments. -/
def isRuntime : Expression → Bool
  | args _ => true
  | and a b | or a b => a.isRuntime || b.isRuntime
  | not a => a.isRuntime
  | _ => false

/-- Evaluates the expression, with arguments if there are any yet. A negation of something that looks
at arguments accepts as long as there are none. -/
def evaluate (m : Method) (c : Option Class) (arguments : Option (List Value)) : Expression → Bool
  | all => true
  | type p => p.acceptsMethod m c
  | method p => Glob.accepts p m.name
  | execution t n ps =>
    t.acceptsMethod m c && Glob.accepts n m.name && ps.all fun ps => paramsAccept ps m.params
  | typeTest test => test (c.elim m.declaring Class.name)
  | methodTest test => test m.name
  | custom test => test m c
  | args test => arguments.all test
  | and a b => a.evaluate m c arguments && b.evaluate m c arguments
  | or a b => a.evaluate m c arguments || b.evaluate m c arguments
  | not a => if arguments.isNone && a.isRuntime then true else !a.evaluate m c arguments

def accepts (e : Expression) (m : Method) (c : Option Class) : Bool := e.evaluate m c none

def acceptsArgs (e : Expression) (m : Method) (c : Option Class) (arguments : List Value) : Bool :=
  e.evaluate m c (some arguments)

/-- Whether the expression can accept any method of a class, as far as the class alone decides. -/
def couldAccept (c : Class) : Expression → Bool
  | type p | execution p _ _ => p.acceptsClass c
  | typeTest test => test c.name
  | and a b => a.couldAccept c && b.couldAccept c
  | or a b => a.couldAccept c || b.couldAccept c
  | _ => true

/-- The written form; tests show no more than that they are there. -/
def shown : Expression → String
  | all => "All"
  | type p => "TypePattern(" ++ p.text ++ ")"
  | method p => "MethodPattern(" ++ p ++ ")"
  | execution t n none => "Execution(" ++ t.text ++ "." ++ n ++ "(..))"
  | execution t n (some ps) =>
    "Execution(" ++ t.text ++ "." ++ n ++ "(" ++ ", ".intercalate ps ++ "))"
  | typeTest _ => "TypeRegex(...)"
  | methodTest _ => "MethodRegex(...)"
  | custom _ => "Custom(...)"
  | args _ => "Args(...)"
  | and a b => "And(" ++ a.shown ++ ", " ++ b.shown ++ ")"
  | or a b => "Or(" ++ a.shown ++ ", " ++ b.shown ++ ")"
  | not a => "Not(" ++ a.shown ++ ")"

end Expression
end Weaving
