/-! The journal: what clients note and what is logged while calls are made, in order. -/
namespace Weaving

inductive Level
  | info
  | warn
  | error
  deriving DecidableEq, Repr

/-- A journal entry: a note that a client leaves, or a log message. -/
inductive Entry
  | note (text : String)
  | log (level : Level) (text : String)
  deriving DecidableEq, Repr

namespace Entry

def info (s : String) : Entry := log .info s

def warn (s : String) : Entry := log .warn s

def error (s : String) : Entry := log .error s

def render : Entry → String
  | note s => s
  | log .info s => "[INFO] " ++ s
  | log .warn s => "[WARN] " ++ s
  | log .error s => "[ERROR] " ++ s

end Entry

end Weaving
