/-
# Components as JSON

| value | written as |
| --- | --- |
| a vulnerability | `id`, `severity` if known, `affectedFunctions` if any |
| a component | `name`, `version`, `ecosystem` if known, `vulnerabilities` if any |

What is left out reads as nothing, and a missing version as the empty text.
-/

import DependencyUse.Component
import DependencyUse.Json.Value

namespace DependencyUse

open Json (Value)

/-- A field that is left out if there is no value. -/
def Json.optionalField {α : Type} (name : String) (encode : α → Value) (value : Option α) :
    List (String × Value) :=
  value.toList.map fun a => (name, encode a)

/-- A field that is left out if the list is empty. -/
def Json.listField {α : Type} (name : String) (encode : α → Value) (values : List α) :
    List (String × Value) :=
  if values.isEmpty then [] else [(name, .array (values.map encode))]

namespace Vulnerability

/-- A vulnerability as a JSON object. -/
def toJson (v : Vulnerability) : Value :=
  .object ([("id", .string v.id)] ++ Json.optionalField "severity" .string v.severity
    ++ Json.listField "affectedFunctions" .string v.affectedFunctions)

/-- Reads a vulnerability. -/
def ofJson? (v : Value) : Option Vulnerability := do
  let r ← v.record? ["id", "severity", "affectedFunctions"]
  let id ← r.required "id" Value.string?
  let severity ← r.optional "severity" Value.string?
  let affectedFunctions ← r.withDefault "affectedFunctions" [] (Value.list? Value.string?)
  return { id, severity, affectedFunctions }

end Vulnerability

namespace Component

/-- A component as a JSON object. -/
def toJson (c : Component) : Value :=
  .object ([("name", .string c.name), ("version", .string c.version)]
    ++ Json.optionalField "ecosystem" .string c.ecosystem
    ++ Json.listField "vulnerabilities" Vulnerability.toJson c.vulnerabilities)

/-- Reads a component. -/
def ofJson? (v : Value) : Option Component := do
  let r ← v.record? ["name", "version", "ecosystem", "vulnerabilities"]
  let name ← r.required "name" Value.string?
  let version ← r.withDefault "version" "" Value.string?
  let ecosystem ← r.optional "ecosystem" Value.string?
  let vulnerabilities ← r.withDefault "vulnerabilities" [] (Value.list? Vulnerability.ofJson?)
  return { name, version, ecosystem, vulnerabilities }

end Component
end DependencyUse
