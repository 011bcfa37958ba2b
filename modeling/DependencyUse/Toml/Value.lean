/-
# TOML values

A table remembers how it came to be, since that decides who may still add to it:

| origin | comes from | gets keys from |
| --- | --- | --- |
| `implied` | the start of a header, as `a` in `[a.b]` | deeper headers, its own header |
| `dotted` | the start of a key, as `a` in `a.b = 1` | keys that go through it, deeper headers |
| `stated` | a header, or the document | the keys under the header, deeper headers |
| `inline` | braces | nobody |

A list of tables that headers make grows by one table with each header; a list in
brackets does not grow.
-/

namespace DependencyUse
namespace Toml

/-- How a table came to be. -/
inductive Origin where
  | implied
  | dotted
  | stated
  | inline
deriving DecidableEq, Repr, Inhabited

/-- A value.  A float and a moment keep their text. -/
inductive Value where
  | string (text : String)
  | integer (value : Int)
  | float (text : String)
  | boolean (value : Bool)
  | moment (text : String)
  | list (items : List Value)
  | tables (rows : List (Origin × List (String × Value)))
  | table (origin : Origin) (entries : List (String × Value))
deriving Repr, Inhabited

/-- A table on its own. -/
structure Table where
  origin : Origin
  entries : List (String × Value)
deriving Repr, Inhabited

namespace Table

/-- A table without keys. -/
def empty (origin : Origin) : Table := ⟨origin, []⟩

/-- The table as a value. -/
def toValue (t : Table) : Value := .table t.origin t.entries

/-- The value of a key. -/
def get? (t : Table) (key : String) : Option Value :=
  (t.entries.find? fun e => e.1 == key).map Prod.snd

/-- The table with a value for a key, at the place of the one it replaces. -/
def set (t : Table) (key : String) (v : Value) : Table :=
  if (t.get? key).isSome then
    { t with entries := t.entries.map fun e => if e.1 == key then (key, v) else e }
  else { t with entries := t.entries ++ [(key, v)] }

/-- Changes the table at the end of some keys.  Where there is none, tables are made on
the way; in a list of tables the way goes through the last one.  A key that is
`dotted` does not go through a table that has its own header, and nothing goes
through an inline table. -/
def within (dotted : Bool) : List String → (Table → Option Table) → Table → Option Table
  | [], change, t => change t
  | key :: keys, change, t =>
    match t.get? key with
    | none =>
      (within dotted keys change (empty (if dotted then .dotted else .implied))).map fun sub =>
        t.set key sub.toValue
    | some (.tables rows) =>
      rows.getLast?.bind fun (origin, entries) =>
        (within dotted keys change ⟨origin, entries⟩).map fun row =>
          t.set key (.tables (rows.dropLast ++ [(row.origin, row.entries)]))
    | some (.table origin entries) =>
      if origin = .inline || (dotted && origin == .stated) then none
      else (within dotted keys change ⟨origin, entries⟩).map fun sub => t.set key sub.toValue
    | some _ => none

/-- Gives a key that is not there yet its value. -/
def insertNew (key : String) (v : Value) (t : Table) : Option Table :=
  if (t.get? key).isSome then none else some (t.set key v)

/-- A key with its value, the key split at its dots.  The table that the key ends in
must be one that dotted keys made if there are dots, and no such table otherwise. -/
def insertPair (keys : List String) (v : Value) (t : Table) : Option Table :=
  match keys.getLast? with
  | none => none
  | some key =>
    t.within true keys.dropLast fun sub =>
      if (sub.origin == .dotted) == keys.dropLast.isEmpty then none else sub.insertNew key v

/-- The header of a table: the table is new, or was only implied. -/
def insertHeader (keys : List String) (t : Table) : Option Table :=
  match keys.getLast? with
  | none => none
  | some key =>
    t.within false keys.dropLast fun sub =>
      match sub.get? key with
      | none => some (sub.set key (empty .stated).toValue)
      | some (.table .implied entries) => some (sub.set key (.table .stated entries))
      | some _ => none

/-- The header of one more table of a list. -/
def insertRow (keys : List String) (t : Table) : Option Table :=
  match keys.getLast? with
  | none => none
  | some key =>
    t.within false keys.dropLast fun sub =>
      match sub.get? key with
      | none => some (sub.set key (.tables [(.stated, [])]))
      | some (.tables rows) => some (sub.set key (.tables (rows ++ [(.stated, [])])))
      | some _ => none

end Table
end Toml
end DependencyUse
