/-
# Manifests

The manifest of a project, `package.json`, declares its dependencies in four tables:

| table | kind |
| --- | --- |
| `dependencies` | production |
| `devDependencies` | development |
| `peerDependencies` | peer |
| `optionalDependencies` | optional |

An entry counts if its value is a text.  Entries come table by table, and by name
within a table.  As components, a name that is in several tables counts where it comes
first; production always counts, and the other tables as they are selected.
-/

import DependencyUse.Component
import DependencyUse.Error
import DependencyUse.Json.Reader
import DependencyUse.Ordered

namespace DependencyUse

/-- The table of an entry. -/
inductive DependencyKind where
  | production
  | development
  | peer
  | optional
deriving DecidableEq, Repr, Inhabited

namespace DependencyKind

/-- The tables in order. -/
def all : List DependencyKind := [.production, .development, .peer, .optional]

/-- The name of the table. -/
def table : DependencyKind → String
  | .production => "dependencies"
  | .development => "devDependencies"
  | .peer => "peerDependencies"
  | .optional => "optionalDependencies"

/-- The name of the kind. -/
def label : DependencyKind → String
  | .production => "production"
  | .development => "development"
  | .peer => "peer"
  | .optional => "optional"

end DependencyKind

/-- A declared dependency. -/
structure DependencyEntry where
  name : String
  version : String
  kind : DependencyKind
deriving DecidableEq, Repr, Inhabited

/-- What is read of `package.json`. -/
structure Manifest where
  name : Option String
  version : Option String
  dependencies : List DependencyEntry
deriving DecidableEq, Repr, Inhabited

/-- The tables that count besides the production one. -/
structure Selection where
  development : Bool := true
  peer : Bool := true
  optional : Bool := true
deriving DecidableEq, Repr, Inhabited

/-- The table counts. -/
def Selection.includes (s : Selection) : DependencyKind → Bool
  | .production => true
  | .development => s.development
  | .peer => s.peer
  | .optional => s.optional

namespace Manifest

open Json (Value)

/-- The name of the file. -/
def fileName : String := "package.json"

/-- The entries of a table. -/
def tableEntries (file : Path) (v : Value) (kind : DependencyKind) :
    Except Error (List DependencyEntry) :=
  match v.get? kind.table with
  | none => .ok []
  | some (.object fields) =>
    .ok ((Value.object fields).entries.filterMap fun (name, value) =>
      value.string?.map fun version => { name, version, kind })
  | some _ => .error (.invalidManifest file ("Field '" ++ kind.table ++ "' is not an object"))

/-- The manifest that a JSON value is. -/
def ofJson (file : Path) (v : Value) : Except Error Manifest :=
  match v with
  | .object _ => do
    let tables ← DependencyKind.all.mapM (tableEntries file v)
    return { name := (v.get? "name").bind Value.string?
             version := (v.get? "version").bind Value.string?
             dependencies := tables.flatten }
  | _ => .error (.invalidManifest file "Root value is not an object")

/-- Reads the text of a manifest. -/
def read (file : Path) (text : String) : Except Error Manifest :=
  match Value.read? text with
  | some v => ofJson file v
  | none => .error (.jsonParse file)

/-- Reads the manifest of a directory. -/
def load (d : Disk) (dir : Path) : Except Error Manifest :=
  let file := dir.join ⟨fileName⟩
  if d.isFile file then
    match d.readText file with
    | .ok text => read file text
    | .error fault => .error (.fileAccess fault.message)
  else .error (.manifestNotFound dir)

/-- How many entries a table has. -/
def count (m : Manifest) (kind : DependencyKind) : Nat :=
  (m.dependencies.filter fun e => e.kind == kind).length

/-- The component of an entry. -/
def component (e : DependencyEntry) : Component where
  name := e.name
  version := e.version
  ecosystem := some "npm"

/-- The components of the selected tables, each name once. -/
def components (m : Manifest) (s : Selection) : List Component :=
  (distinctBy (fun a b => a.name == b.name)
    (m.dependencies.filter fun e => s.includes e.kind)).map component

end Manifest
end DependencyUse
