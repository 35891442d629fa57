import Weaving.Failure
import Weaving.Proxy.Settings
import Weaving.Text.Blank
import Weaving.Toml.Reader

/-! Settings: read from the record aop of a TOML document, in which every key may be missing and unknown
ones are ignored, and then overridden by variables of the environment. -/
namespace Weaving

structure Settings where
  enabled : Bool := true
  proxy : ProxySettings := {}
  performanceThreshold : Nat := 1000
  deriving DecidableEq, Repr

namespace Settings

def malformed : Fault := .config "Failed to parse TOML"

/-- The boolean under a key, or what is there if the key is missing. -/
def readBool (es : Toml.Entries) (key : String) (present : Bool) : Except Fault Bool :=
  match es.find? key with
  | none => .ok present
  | some (.bool b) => .ok b
  | some _ => .error malformed

/-- The fields of a record that is written as a table, or as an array that has the fields in order and
may stop early, or go on with anything. A moment is a record without a known field. -/
def fields? (names : List String) : Toml → Option Toml.Entries
  | .table _ entries => some entries
  | .array items => some (names.zip items)
  | .moment => some []
  | _ => none

/-- The fields of the record under a key, none if the key is missing. -/
def readRecord (es : Toml.Entries) (key : String) (names : List String) : Except Fault Toml.Entries :=
  match (es.find? key).map (fields? names) with
  | none => .ok []
  | some (some inner) => .ok inner
  | some none => .error malformed

def readProxy (es : Toml.Entries) : Except Fault ProxySettings := do
  let es ← readRecord es "proxy" ["proxy_target_class", "optimize", "opaque", "frozen"]
  return {
    proxyTargetClass := ← readBool es "proxy_target_class" false
    optimize := ← readBool es "optimize" false
    concealed := ← readBool es "opaque" false
    frozen := ← readBool es "frozen" false }

/-- The threshold must not be negative. -/
def readThreshold (es : Toml.Entries) : Except Fault Nat :=
  match es.find? "performance_threshold_ms" with
  | none => .ok 1000
  | some (.integer n) => if 0 ≤ n then .ok n.toNat else .error malformed
  | some _ => .error malformed

def ofToml (text : String) : Except Fault Settings := do
  match Toml.ofString? text with
  | none => throw malformed
  | some document =>
    let es ← readRecord document "aop" ["enabled", "proxy", "performance_threshold_ms"]
    return {
      enabled := ← readBool es "enabled" true
      proxy := ← readProxy es
      performanceThreshold := ← readThreshold es }

/-- The environment: the values of variables by name. -/
abbrev Environment := String → Option String

def variableName (name : String) : String := "CHIMERA_AOP_" ++ name

def readFlag (name value : String) : Except Fault Bool :=
  let word := String.ofList ((Text.trim value.toList).map Char.toLower)
  if word ∈ ["true", "1", "yes", "on"] then .ok true
  else if word ∈ ["false", "0", "no", "off"] then .ok false
  else .error (.config (variableName name ++ " must be a boolean, got '" ++ value ++ "'"))

/-- A number of 64 bits in decimal digits, which a plus may precede. -/
def readNumber (name value : String) : Except Fault Nat :=
  let digits := match Text.trim value.toList with
    | '+' :: ds => ds
    | ds => ds
  let n := digits.foldl (fun a d => 10 * a + (d.toNat - '0'.toNat)) 0
  if !digits.isEmpty && digits.all Char.isDigit && n < Nat.pow 2 64 then .ok n
  else .error (.config (variableName name ++ " must be an integer, got '" ++ value ++ "'"))

/-- The value of a variable if it is set, or else what was there before. -/
def override {α : Type} (env : Environment) (parse : String → String → Except Fault α) (name : String)
    (present : α) : Except Fault α :=
  match env (variableName name) with
  | some value => parse name value
  | none => .ok present

/-- Overrides settings by the environment; of several bad variables the first in this order counts. -/
def withOverrides (s : Settings) (env : Environment) : Except Fault Settings := do
  return {
    enabled := ← override env readFlag "ENABLED" s.enabled
    proxy := {
      proxyTargetClass := ← override env readFlag "PROXY_TARGET_CLASS" s.proxy.proxyTargetClass
      optimize := ← override env readFlag "OPTIMIZE" s.proxy.optimize
      concealed := ← override env readFlag "OPAQUE" s.proxy.concealed
      frozen := ← override env readFlag "FROZEN" s.proxy.frozen }
    performanceThreshold :=
      ← override env readNumber "PERFORMANCE_THRESHOLD_MS" s.performanceThreshold }

def ofEnvironment (env : Environment) : Except Fault Settings := ({} : Settings).withOverrides env

def load (text : String) (env : Environment) : Except Fault Settings := do
  (← ofToml text).withOverrides env

end Settings
end Weaving
