import TensorGraph.Toml.Value

/-!
# TOML tables

How keys and headers build up the tables of a document. A table is defined once: a header may name
again only a table that is merely implied by other headers, and a dotted key may not lead into a
table that is defined otherwise.
-/

namespace TensorGraph.Toml

def Value.kind : Value → String
  | text _ => "string"
  | integer _ => "integer"
  | float _ => "float"
  | boolean _ => "boolean"
  | moment => "datetime"
  | array _ => "array"
  | table .. => "inline table"
  | tables _ => "array of tables"

def replace (key : String) (v : Located Value) : Entries → Entries
  | [] => [(key, v)]
  | (k, old) :: rest => if k = key then (k, v) :: rest else (k, old) :: replace key v rest

/-- Changes the table at the end of a path. Tables that are missing on the way are made, as
`dotted` or as implied ones; `place` is where the path is written. -/
def changeAt (place : Value → Located Value) (dotted : Bool) (passed : List String) :
    List String → Origin → Entries → (Origin → Entries → Except Reason Entries) →
      Except Reason Entries
  | [], origin, entries, change => change origin entries
  | key :: path, _, entries, change =>
    match entries.lookup key with
    | none => do
      let origin := if dotted then .dotted else .implied
      let inner ← changeAt place dotted (passed ++ [key]) path origin [] change
      return entries ++ [(key, place (.table origin inner))]
    | some v =>
      match v.value with
      | .table origin inner =>
        if origin = .inline && !dotted then
          .error (.notTable (passed ++ [key]) v.value.kind)
        else if dotted && (origin = .header || origin = .inline) then
          .error (.duplicate key none)
        else do
          let inner ← changeAt place dotted (passed ++ [key]) path origin inner change
          return replace key { v with value := .table origin inner } entries
      | .tables each => do
        let inner ← changeAt place dotted (passed ++ [key]) path .header (each.getLast?.getD [])
          change
        return replace key { v with value := .tables (each.dropLast ++ [inner]) } entries
      | other => .error (.notTable (passed ++ [key]) other.kind)

/-- Gives a key of a table its value. Behind a dotted path the table must come from dotted keys. -/
def define (table : Option (List String)) (dotted : Bool) (key : String) (v : Located Value)
    (origin : Origin) (entries : Entries) : Except Reason Entries :=
  if (origin = .dotted) != dotted then .error (.duplicate key none)
  else if (entries.lookup key).isSome then .error (.duplicate key table)
  else .ok (entries ++ [(key, v)])

def assign (place : Value → Located Value) (table path : List String) (key : String)
    (v : Located Value) (root : Entries) : Except Reason Entries :=
  changeAt place false [] table .header root fun origin entries =>
    changeAt place true [] path origin entries (define (some table) (!path.isEmpty) key v)

/-- Opens the table of a header: a new one, or one that was merely implied. -/
def openTable (place : Value → Located Value) (path : List String) (key : String)
    (root : Entries) : Except Reason Entries :=
  changeAt place false [] path .header root fun _ entries =>
    match entries.lookup key with
    | none => .ok (entries ++ [(key, place (.table .header []))])
    | some v =>
      match v.value with
      | .table .implied inner => .ok (replace key (place (.table .header inner)) entries)
      | _ => .error (.duplicate key (some path))

/-- Adds a table to those of a header in double brackets. -/
def addTable (place : Value → Located Value) (path : List String) (key : String)
    (root : Entries) : Except Reason Entries :=
  changeAt place false [] path .header root fun _ entries =>
    match entries.lookup key with
    | none => .ok (entries ++ [(key, place (.tables [[]]))])
    | some v =>
      match v.value with
      | .tables each => .ok (replace key { v with value := .tables (each ++ [[]]) } entries)
      | _ => .error (.duplicate key (some path))

/-- Gives a dotted key its value in a table that is written as a value. -/
def assignInline (place : Value → Located Value) (path : List String) (key : String)
    (v : Located Value) (entries : Entries) : Except Reason Entries :=
  changeAt place true [] path .inline entries (define none (!path.isEmpty) key v)

end TensorGraph.Toml
