/-
# Remembered imports

The imports of a file are read once.  Files of the project are put in beforehand;
a file that is reached otherwise is read when it is first asked for, and counts as
having no imports if it cannot be read then.

| step | entry for the normal form of the path | counted |
| --- | --- | --- |
| `seed` | replaced | |
| `imports`, with an entry | stays | a hit |
| `imports`, without one | what is read now | a miss |
-/

import DependencyUse.Source.File

namespace DependencyUse

/-- The imports of the files that were put in or asked for. -/
structure ParseCache where
  /-- files under it are shown by their path from here -/
  root : Path
  entries : List (Path × List ImportRecord) := []
  hits : Nat := 0
  misses : Nat := 0
deriving DecidableEq, Repr, Inhabited

namespace ParseCache

/-- How a path is shown. -/
def display (c : ParseCache) (p : Path) : Path :=
  p.displayedFrom c.root

/-- The entry of a path in normal form. -/
def get? (c : ParseCache) (key : Path) : Option (List ImportRecord) :=
  c.entries.lookup key

/-- Puts an entry in the place of one for the same path, or at the end. -/
def put (key : Path) (imports : List ImportRecord) :
    List (Path × List ImportRecord) → List (Path × List ImportRecord)
  | [] => [(key, imports)]
  | e :: es => if e.1 = key then (key, imports) :: es else e :: put key imports es

/-- Puts in the imports of a file. -/
def seedOne (c : ParseCache) (path : Path) (imports : List ImportRecord) : ParseCache :=
  { c with entries := put path.normalize imports c.entries }

/-- Puts in the imports of some files. -/
def seed (c : ParseCache) (files : List ParsedFile) : ParseCache :=
  files.foldl (fun c f => c.seedOne f.path f.imports) c

/-- What the disk says are the imports of a file. -/
def read (d : Disk) (c : ParseCache) (key : Path) : List ImportRecord :=
  match d.parseImports key (c.display key) with
  | .ok imports => imports
  | .error _ => []

/-- The imports of a file. -/
def imports (d : Disk) (path : Path) : StateM ParseCache (List ImportRecord) := do
  let key := path.normalize
  let c ← get
  match c.get? key with
  | some imports =>
    set { c with hits := c.hits + 1 }
    return imports
  | none =>
    let imports := read d c key
    set { c with misses := c.misses + 1, entries := put key imports c.entries }
    return imports

/-- The share of questions that were answered from memory. -/
def hitRate (c : ParseCache) : Float :=
  let total := c.hits + c.misses
  if total = 0 then 0.0 else c.hits.toFloat / total.toFloat

end ParseCache
end DependencyUse
