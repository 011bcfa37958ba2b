/-
# Imports as JSON

| value | written as |
| --- | --- |
| a path, a kind | its text |
| a location | `file`, `line`, `column`, `snippet` |
| a pair of names | `imported`, `local` |
| a record | `moduleName`, `kind`, `boundNames`, `isTypeOnly`, `location` |

Lines and columns are below `2 ^ 32`.
-/

import DependencyUse.Import.Basic
import DependencyUse.Json.Value

namespace DependencyUse

open Json (Value)

namespace Path

/-- A path as a JSON text. -/
def toJson (p : Path) : Value := .string p.text

/-- Reads a path. -/
def ofJson? (v : Value) : Option Path := v.string?.map Path.mk

end Path

namespace Location

/-- Lines and columns are below this. -/
def limit : Nat := Nat.pow 2 32

/-- A location as a JSON object. -/
def toJson (l : Location) : Value :=
  .object [("file", l.file.toJson), ("line", .nat l.line), ("column", .nat l.column),
    ("snippet", .string l.snippet)]

/-- Reads a location. -/
def ofJson? (v : Value) : Option Location := do
  let r ← v.record? ["file", "line", "column", "snippet"]
  let file ← r.required "file" Path.ofJson?
  let line ← r.required "line" (Value.natBelow? limit)
  let column ← r.required "column" (Value.natBelow? limit)
  let snippet ← r.required "snippet" Value.string?
  return { file, line, column, snippet }

end Location

namespace BoundName

/-- A pair of names as a JSON object. -/
def toJson (b : BoundName) : Value :=
  .object [("imported", .string b.imported), ("local", .string b.localName)]

/-- Reads a pair of names. -/
def ofJson? (v : Value) : Option BoundName := do
  let r ← v.record? ["imported", "local"]
  let imported ← r.required "imported" Value.string?
  let localName ← r.required "local" Value.string?
  return { imported, localName }

end BoundName

namespace ImportKind

/-- A kind as a JSON text. -/
def toJson (k : ImportKind) : Value := .string k.label

/-- Reads a kind. -/
def ofJson? (v : Value) : Option ImportKind := v.choice? ofLabel?

end ImportKind

namespace ImportRecord

/-- A record as a JSON object. -/
def toJson (r : ImportRecord) : Value :=
  .object [("moduleName", .string r.specifier), ("kind", r.kind.toJson),
    ("boundNames", .array (r.names.map BoundName.toJson)), ("isTypeOnly", .bool r.typeOnly),
    ("location", r.location.toJson)]

/-- Reads a record. -/
def ofJson? (v : Value) : Option ImportRecord := do
  let r ← v.record? ["moduleName", "kind", "boundNames", "isTypeOnly", "location"]
  let specifier ← r.required "moduleName" Value.string?
  let kind ← r.required "kind" ImportKind.ofJson?
  let names ← r.required "boundNames" (Value.list? BoundName.ofJson?)
  let typeOnly ← r.required "isTypeOnly" Value.bool?
  let location ← r.required "location" Location.ofJson?
  return { specifier, kind, names, typeOnly, location }

end ImportRecord
end DependencyUse
