import Weaving.Toml.Lexeme

/-! Reading TOML documents: values with arrays and inline tables in them, and lines of keys and headers.
The first numbers that the readers count down bound how often they go on, and the length of the input
is always enough; the second ones bound how deeply values are nested. -/
namespace Weaving.Toml

mutual

def readValue : Nat → Nat → Reader Toml
  | 0, _, _ => none
  | n + 1, depth, s =>
    match depth, s with
    | 0, '[' :: _ | 0, '\x7b' :: _ => none
    | d + 1, '[' :: r => (readItems n d [] r).map fun p => (.array p.1, p.2)
    | d + 1, '\x7b' :: r =>
      match skipSpace r with
      | '\x7d' :: r => some (.table .inlined [], r)
      | _ => (readPairs n d [] r).map fun p => (.table .inlined p.1, p.2)
    | _, '"' :: _ | _, '\'' :: _ => (readText s).map fun p => (.text p.1, p.2)
    | _, s => readBool s <|> readMoment s <|> readNumber s

/-- The items of an array up to its closing bracket; a comma may follow the last. -/
def readItems : Nat → Nat → List Toml → Reader (List Toml)
  | 0, _, _, _ => none
  | n + 1, depth, found, s =>
    match skipTrivia s with
    | ']' :: r => some (found, r)
    | r => do
      let (v, r) ← readValue n depth r
      match skipTrivia r with
      | ',' :: r => readItems n depth (found ++ [v]) r
      | ']' :: r => some (found ++ [v], r)
      | _ => none

/-- The pairs of an inline table up to its closing brace; no comma follows the last. -/
def readPairs : Nat → Nat → Entries → Reader Entries
  | 0, _, _, _ => none
  | n + 1, depth, found, s => do
    let (key, r) ← readKey s
    let (v, r) ← readValue n depth (skipSpace (← readChar '=' r))
    let found ← found.set key.1 key.2 v
    match skipSpace r with
    | ',' :: r => readPairs n depth found r
    | '\x7d' :: r => some (found, r)
    | _ => none

end

/-- A document while it is read: what has been found, and the header that keys belong to. -/
structure Document where
  entries : Entries := []
  header : List String := []

namespace Document

/-- Sets a key below the current header. -/
def set (d : Document) (path : List String) (key : String) (v : Toml) : Option Document := do
  let entries ← Entries.descend false (fun _ es => es.set path key v) d.header .header d.entries
  return { d with entries }

def openTable (d : Document) (path : List String) (key : String) : Option Document := do
  return ⟨← d.entries.openTable path key, path ++ [key]⟩

def openRow (d : Document) (path : List String) (key : String) : Option Document := do
  return ⟨← d.entries.openRow path key, path ++ [key]⟩

end Document

/-- A header, a repeated header, or a key with its value. -/
def readStatement (d : Document) (s : List Char) : Option (Document × List Char) :=
  match s with
  | '[' :: '[' :: s => do
    let ((path, key), r) ← readKey s
    let r ← readChar ']' (← readChar ']' r)
    return (← d.openRow path key, r)
  | '[' :: s => do
    let ((path, key), r) ← readKey s
    let r ← readChar ']' r
    return (← d.openTable path key, r)
  | s => do
    let ((path, key), r) ← readKey s
    let (v, r) ← readValue (s.length + 1) maxDepth (skipSpace (← readChar '=' r))
    return (← d.set path key v, r)

/-- Reads line by line; a statement ends at the end of its line. -/
def readLines : Nat → Document → List Char → Option Document
  | 0, _, _ => none
  | n + 1, d, s =>
    match skipTrivia s with
    | [] => some d
    | s => do
      let (d, r) ← readStatement d s
      match skipComment (skipSpace r) with
      | [] => some d
      | r => readLines n d (← lineEnd? r)

/-- Skips the byte order mark that may come first. -/
def skipMark : List Char → List Char
  | '\ufeff' :: s => s
  | s => s

/-- The entries of the document that a text denotes, if it denotes one. -/
def ofString? (text : String) : Option Entries :=
  (readLines (text.length + 1) {} (skipMark text.toList)).map (·.entries)

end Weaving.Toml
