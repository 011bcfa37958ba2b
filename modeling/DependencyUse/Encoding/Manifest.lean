/-
# Manifests as JSON

| value | written as |
| --- | --- |
| an entry | `name`, `version_spec`, `kind` |
| a manifest | `name`, `version`, `dependencies` |
-/

import DependencyUse.Manifest

namespace DependencyUse

open Json (Value)

/-- An entry as a JSON object. -/
def DependencyEntry.toJson (e : DependencyEntry) : Value :=
  .object [("name", .string e.name), ("version_spec", .string e.version),
    ("kind", .string e.kind.label)]

/-- A manifest as a JSON object. -/
def Manifest.toJson (m : Manifest) : Value :=
  .object [("name", .optional .string m.name), ("version", .optional .string m.version),
    ("dependencies", .array (m.dependencies.map DependencyEntry.toJson))]

end DependencyUse
