/-
# Names that flow through re-exports

While an import is followed from file to file, each name that the importer asks for is
known by the name it has in the file that is looked at.  An import of a whole module,
or one that binds nothing, asks for every name.

| re-export | every name | some names |
| --- | --- | --- |
| `export * from` | every name | the same names |
| `export * as n from 'm'` | `n`, as the whole of `m` | those called `n`, as the whole of `m` |
| `export * as n from './f'` | every name of the file | every name of the file, if one is called `n` |
| `export { a as b } from` | `b`, as `a` | those called `b`, as `a` |

A re-export that lets none of the names through ends the way.
-/

import DependencyUse.Import.Basic

namespace DependencyUse

/-- A name that the importer asks for, and what it is called where the search is. -/
structure NameFlow where
  requested : String
  current : String
deriving DecidableEq, Repr, Inhabited

/-- The names that are followed. -/
inductive Flows where
  | all
  | names (flows : List NameFlow)
deriving DecidableEq, Repr, Inhabited

namespace Flows

/-- The names that an import asks for. -/
def requestedBy (r : ImportRecord) : Flows :=
  if r.names.isEmpty || r.names.any BoundName.isWhole then .all
  else .names (r.names.map fun b => ⟨b.imported, b.imported⟩)

/-- Some names, or nothing if there are none. -/
def ofHits (hits : List NameFlow) : Option Flows :=
  if hits.isEmpty then none else some (.names hits)

/-- The names that `export * as name from` an outside module lets through. -/
def wholeHits (name : String) : Flows → List NameFlow
  | .all => [⟨name, BoundName.wholeName⟩]
  | .names flows =>
    (flows.filter fun f => f.current == name).map fun f => ⟨f.requested, BoundName.wholeName⟩

/-- The names that `export { … } from` lets through. -/
def namedHits (names : List BoundName) : Flows → List NameFlow
  | .all => names.map fun b => ⟨b.localName, b.imported⟩
  | .names flows =>
    flows.flatMap fun f =>
      (names.filter fun b => b.localName == f.current).map fun b => ⟨f.requested, b.imported⟩

/-- The names that a re-export lets through, and whether it is an `export *`; nothing
if it lets none through. -/
def forward (flows : Flows) (r : ImportRecord) : Option (Flows × Bool) :=
  match r.kind with
  | .reexportAll =>
    match r.names.head? with
    | none => some (flows, true)
    | some whole =>
      (ofHits (flows.wholeHits whole.localName)).map fun hits =>
        (if r.isRelative then .all else hits, false)
  | .reexport => (ofHits (flows.namedHits r.names)).map fun hits => (hits, false)
  | _ => none

/-- The pairs of a chain: the name at its end and the name that is asked for.  No
pairs stand for every name. -/
def forwarded : Flows → List BoundName
  | .all => []
  | .names flows => flows.map fun f => ⟨f.current, f.requested⟩

end Flows
end DependencyUse
