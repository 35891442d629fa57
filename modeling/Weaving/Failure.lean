import Weaving.Text.Alphanumeric
import Weaving.Text.Quoted
import Weaving.Method

/-! What goes wrong. A fault is a misuse of the library with its own message; a failure is what a call
ends with: its outermost cause and the causes below it. A summary keeps what can be printed of one. -/
namespace Weaving

inductive Fault
  | unknownAdviceType (what : String)
  | introductionConflict (what : String)
  | proxyCreation (what : String)
  | configFrozen (what : String)
  | config (what : String)
  | invocationCompleted (method : String)
  | noTarget (method : String)
  | methodNotExposed (method plan : String)
  deriving DecidableEq, Repr

namespace Fault

def name : Fault → String
  | unknownAdviceType _ => "UnknownAdviceType"
  | introductionConflict _ => "IntroductionConflict"
  | proxyCreation _ => "ProxyCreation"
  | configFrozen _ => "ConfigFrozen"
  | config _ => "Config"
  | invocationCompleted _ => "InvocationCompleted"
  | noTarget _ => "NoTarget"
  | methodNotExposed _ _ => "MethodNotExposed"

def message : Fault → String
  | unknownAdviceType s => "Unknown advice type: " ++ s
  | introductionConflict s => "Introduction conflict: " ++ s
  | proxyCreation s => "Cannot create proxy: " ++ s
  | configFrozen s => "Proxy configuration is frozen: " ++ s
  | config s => "Invalid AOP configuration: " ++ s
  | invocationCompleted m => "proceed() called on an already completed invocation of " ++ m
  | noTarget m => "No target available to invoke " ++ m
  | methodNotExposed m p => "Method " ++ m ++ " is not exposed by proxy (" ++ p ++ ")"

/-- A fault by its name, about a method or a text; the plan is for methods that are not exposed. -/
def ofName? (s what plan : String) : Option Fault :=
  [unknownAdviceType what, introductionConflict what, proxyCreation what, configFrozen what,
    config what, invocationCompleted what, noTarget what, methodNotExposed what plan].find?
    fun f => f.name = s

end Fault

/-- One element of a failure: a fault, a bare message, a context around another cause, or an error of
a type of its own, given with its message and its written form. -/
inductive Cause
  | fault (f : Fault)
  | message (text : String)
  | context (text : String)
  | typed (type text shown : String)
  deriving DecidableEq, Repr

namespace Cause

def text : Cause → String
  | fault f => f.message
  | message s | context s | typed _ s _ => s

/-- The type by which handlers tell causes apart; messages and contexts have none. -/
def type? : Cause → Option String
  | fault _ => some "chimera_aop::error::AopError"
  | typed t _ _ => some t
  | message _ | context _ => none

/-- The written form, as far as its first name, which is all that is read of it. -/
def shown : Cause → String
  | fault f => f.name
  | message s => Text.quote s
  | context _ => "Error"
  | typed _ _ s => s

/-- The first name in the written form. -/
def typeName (c : Cause) : String :=
  let name := (c.shown.toList.dropWhile fun c => !Text.isNameChar c).takeWhile Text.isNameChar
  if name.isEmpty then "Unknown" else String.ofList name

end Cause

structure Failure where
  cause : Cause
  sources : List Cause := []
  deriving DecidableEq, Repr

namespace Failure

def ofFault (f : Fault) : Failure := ⟨.fault f, []⟩

def ofMessage (s : String) : Failure := ⟨.message s, []⟩

/-- The causes from the outermost inwards. -/
def chain (f : Failure) : List Cause := f.cause :: f.sources

def message (f : Failure) : String := f.cause.text

def withContext (f : Failure) (s : String) : Failure := ⟨.context s, f.chain⟩

/-- What can be kept and printed of a failure. -/
structure Summary where
  message : String
  type : String
  causes : List String
  deriving DecidableEq, Repr

def summary (f : Failure) : Summary :=
  ⟨f.message, f.cause.typeName, f.sources.map Cause.text⟩

namespace Summary

/-- The innermost cause, or the failure itself if nothing caused it. -/
def root (s : Summary) : String := s.causes.getLastD s.message

def text (s : Summary) : String :=
  if s.causes.isEmpty then s.message
  else s.message ++ "\nCaused by:\n  " ++ "\n  ".intercalate s.causes

end Summary
end Failure

/-- How a call ends. -/
abbrev Outcome (α : Type) := Except Failure α

/-- What no call recovers from: a matcher asked for arguments although it never looks at any, or calls
nested beyond all bounds. -/
inductive Abort
  | staticMatcher (method : Method)
  | nestedTooDeep
  deriving DecidableEq, Repr

def Abort.message : Abort → String
  | staticMatcher m => "MethodMatcher::matches_args() called on a static matcher for " ++ m.text
  | nestedTooDeep => "calls nested too deep"

end Weaving
