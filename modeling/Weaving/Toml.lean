/-! TOML documents as trees. A table remembers how it came about, because that decides whether later
keys and headers may extend it. -/
namespace Weaving

inductive Toml.Origin
  /-- On the way to a table with a header of its own. -/
  | implied
  /-- By a dotted key. -/
  | dotted
  | header
  | inlined
  deriving DecidableEq, Repr

inductive Toml
  | text (s : String)
  | integer (n : Int)
  | float
  | bool (b : Bool)
  /-- A date, a time, or both. -/
  | moment
  | array (items : List Toml)
  | table (origin : Toml.Origin) (entries : List (String × Toml))
  /-- Tables under one repeated header. -/
  | rows (tables : List Toml)

namespace Toml

abbrev Entries := List (String × Toml)

namespace Entries

def find? (es : Entries) (key : String) : Option Toml := es.lookup key

def put (es : Entries) (key : String) (v : Toml) : Entries :=
  if (es.find? key).isSome then es.map fun e => if e.1 = key then (key, v) else e
  else es ++ [(key, v)]

/-- Changes the table at the end of a path, making the tables on the way that are missing. The last
of repeated tables stands for all of them. Dotted keys do not enter tables that have a header or are
written inline. -/
def descend (dotted : Bool) (change : Origin → Entries → Option Entries) :
    (path : List String) → Origin → Entries → Option Entries
  | [], origin, es => change origin es
  | key :: path, _, es =>
    let fresh : Origin := if dotted then .dotted else .implied
    match es.find? key with
    | none => (descend dotted change path fresh []).map fun t => es.put key (.table fresh t)
    | some (.table o t) =>
      if o = .inlined ∨ dotted ∧ o = .header then none
      else (descend dotted change path o t).map fun t => es.put key (.table o t)
    | some (.rows ts) =>
      match ts.getLast? with
      | some (.table o t) =>
        (descend dotted change path o t).map fun t =>
          es.put key (.rows (ts.dropLast ++ [.table o t]))
      | _ => none
    | some _ => none

/-- Sets a key that is not there yet, in a table that dotted keys have made if a dotted key sets it. -/
def set (path : List String) (key : String) (v : Toml) (es : Entries) : Option Entries :=
  descend true (fun o t =>
    if (!path.isEmpty && o ≠ .dotted) || (t.find? key).isSome then none else some (t.put key v))
    path .header es

/-- Opens the table of a header: a new one, or one that was only on the way so far. -/
def openTable (path : List String) (key : String) (es : Entries) : Option Entries :=
  descend false (fun _ t =>
    match t.find? key with
    | none => some (t.put key (.table .header []))
    | some (.table .implied inner) => some (t.put key (.table .header inner))
    | some _ => none) path .header es

/-- Opens one more table of a repeated header. -/
def openRow (path : List String) (key : String) (es : Entries) : Option Entries :=
  descend false (fun _ t =>
    match t.find? key with
    | none => some (t.put key (.rows [.table .header []]))
    | some (.rows ts) => some (t.put key (.rows (ts ++ [.table .header []])))
    | some _ => none) path .header es

end Entries
end Toml
end Weaving
