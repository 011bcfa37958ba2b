/-
# Imports

An import record says that a file brings in a module: how, under which names, and
where.  The names come in pairs, the name in the module and the name in the file:

| form | pairs |
| --- | --- |
| `import { a as b } from 'm'` | `a`, `b` |
| `import d from 'm'` | `default`, `d` |
| `import * as n from 'm'` | `*`, `n` |
| `export { a as b } from 'm'` | `a`, `b`, where `b` is the name it forwards as |
| `export * as n from 'm'` | `*`, `n` |
| `export * from 'm'`, `import 'm'` | none |

A pair is kept once, where it comes first.
-/

import DependencyUse.Location

namespace DependencyUse

/-- How a module is brought into a file. -/
inductive ImportKind where
  | named
  | default
  | whole
  | sideEffect
  /-- `import('m')` -/
  | dynamic
  /-- `require('m')` -/
  | require
  | typeOnly
  /-- `export { a } from 'm'` -/
  | reexport
  /-- `export * from 'm'` and `export * as n from 'm'` -/
  | reexportAll
deriving DecidableEq, Repr, Inhabited

namespace ImportKind

/-- All kinds, in order. -/
def all : List ImportKind :=
  [.named, .default, .whole, .sideEffect, .dynamic, .require, .typeOnly, .reexport, .reexportAll]

/-- The name of a kind in reports. -/
def label : ImportKind → String
  | .named => "namedImport"
  | .default => "defaultImport"
  | .whole => "namespaceImport"
  | .sideEffect => "sideEffectOnly"
  | .dynamic => "dynamicImport"
  | .require => "commonJsRequire"
  | .typeOnly => "typeOnlyImport"
  | .reexport => "reExport"
  | .reexportAll => "reExportAll"

/-- The kind with a given name. -/
def ofLabel? (label : String) : Option ImportKind :=
  all.find? fun kind => kind.label == label

/-- The place of a kind in the order of kinds. -/
def rank : ImportKind → Nat
  | .named => 0
  | .default => 1
  | .whole => 2
  | .sideEffect => 3
  | .dynamic => 4
  | .require => 5
  | .typeOnly => 6
  | .reexport => 7
  | .reexportAll => 8

/-- The record comes from an `export … from` declaration. -/
def isReexport (kind : ImportKind) : Bool :=
  kind == .reexport || kind == .reexportAll

end ImportKind

/-- A name of a module and the name that stands for it. -/
structure BoundName where
  /-- the name in the module, `*` for the whole of it -/
  imported : String
  /-- the name in the file, or the name a re-export gives it -/
  localName : String
deriving DecidableEq, Repr, Inhabited

namespace BoundName

/-- The name of a module as a whole. -/
def wholeName : String := "*"

/-- The name of a default export. -/
def defaultName : String := "default"

/-- A name for the module as a whole. -/
def whole (localName : String) : BoundName :=
  ⟨wholeName, localName⟩

/-- The name stands for the module as a whole. -/
def isWhole (b : BoundName) : Bool :=
  b.imported == wholeName

/-- The name stands for the default export. -/
def isDefault (b : BoundName) : Bool :=
  b.imported == defaultName

/-- The name stands for the module or for its default export: which members are used
is then known from the member calls alone. -/
def isWholeModule (b : BoundName) : Bool :=
  b.isWhole || b.isDefault

end BoundName

/-- A specifier that points into the project: `.`, `..`, `./…` or `../…`. -/
def isRelative (specifier : String) : Bool :=
  specifier == "." || specifier == ".." || "./".toList.isPrefixOf specifier.toList
    || "../".toList.isPrefixOf specifier.toList

/-- One import, `require` or re-export. -/
structure ImportRecord where
  specifier : String
  kind : ImportKind
  names : List BoundName
  typeOnly : Bool
  location : Location
deriving DecidableEq, Repr, Inhabited

namespace ImportRecord

/-- A record that binds nothing yet. -/
def new (specifier : String) (kind : ImportKind) (location : Location) : ImportRecord :=
  { specifier, kind, names := [], typeOnly := kind == .typeOnly, location }

/-- Binds a pair of names, once. -/
def bind (r : ImportRecord) (name : BoundName) : ImportRecord :=
  if r.names.contains name then r else { r with names := r.names ++ [name] }

/-- Binds pairs of names one after the other. -/
def bindAll (r : ImportRecord) (names : List BoundName) : ImportRecord :=
  names.foldl bind r

/-- The record comes from an `export … from` declaration. -/
def isReexport (r : ImportRecord) : Bool :=
  r.kind.isReexport

/-- The record names a file of the project. -/
def isRelative (r : ImportRecord) : Bool :=
  DependencyUse.isRelative r.specifier

/-- The pair whose name in the file is `localName`. -/
def binding? (r : ImportRecord) (localName : String) : Option BoundName :=
  r.names.find? fun b => b.localName == localName

end ImportRecord
end DependencyUse
