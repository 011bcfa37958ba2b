/-
# Verdicts as JSON

| value | written as |
| --- | --- |
| a warning | `code`, `message`, `location` if there is one, `severity` |
| a usage | `importStyles`, `usedMembers`, `referencedMembers`, `vulnerableFunctionsCalled`, `locations` |
| a verdict | `component`, `status`, `confidence`, `usage`, `warnings`, `notes` |
-/

import DependencyUse.Encoding.Component
import DependencyUse.Encoding.Import
import DependencyUse.Verdict.Basic

namespace DependencyUse

open Json (Value)

namespace Warning

/-- A warning as a JSON object. -/
def toJson (w : Warning) : Value :=
  .object ([("code", .string w.code.label), ("message", .string w.message)]
    ++ Json.optionalField "location" Location.toJson w.location
    ++ [("severity", .string w.severity.label)])

/-- Reads a warning. -/
def ofJson? (v : Value) : Option Warning := do
  let r ← v.record? ["code", "message", "location", "severity"]
  let code ← r.required "code" (Value.choice? WarningCode.ofLabel?)
  let message ← r.required "message" Value.string?
  let location ← r.optional "location" Location.ofJson?
  let severity ← r.required "severity" (Value.choice? WarningSeverity.ofLabel?)
  return { code, message, location, severity }

end Warning

namespace Usage

/-- A usage as a JSON object. -/
def toJson (u : Usage) : Value :=
  .object [("importStyles", .array (u.importStyles.map ImportKind.toJson)),
    ("usedMembers", .strings u.usedMembers), ("referencedMembers", .strings u.referencedMembers),
    ("vulnerableFunctionsCalled", .strings u.vulnerableFunctionsCalled),
    ("locations", .array (u.locations.map Location.toJson))]

/-- Reads a usage. -/
def ofJson? (v : Value) : Option Usage := do
  let r ← v.record? ["importStyles", "usedMembers", "referencedMembers",
    "vulnerableFunctionsCalled", "locations"]
  let importStyles ← r.required "importStyles" (Value.list? ImportKind.ofJson?)
  let usedMembers ← r.required "usedMembers" (Value.list? Value.string?)
  let referencedMembers ← r.required "referencedMembers" (Value.list? Value.string?)
  let vulnerableFunctionsCalled ←
    r.required "vulnerableFunctionsCalled" (Value.list? Value.string?)
  let locations ← r.required "locations" (Value.list? Location.ofJson?)
  return { importStyles, usedMembers, referencedMembers, vulnerableFunctionsCalled, locations }

end Usage

namespace ComponentResult

/-- A verdict as a JSON object. -/
def toJson (r : ComponentResult) : Value :=
  .object [("component", r.component.toJson), ("status", .string r.status.label),
    ("confidence", .string r.confidence.label), ("usage", r.usage.toJson),
    ("warnings", .array (r.warnings.map Warning.toJson)), ("notes", .strings r.notes)]

/-- Reads a verdict. -/
def ofJson? (v : Value) : Option ComponentResult := do
  let r ← v.record? ["component", "status", "confidence", "usage", "warnings", "notes"]
  let component ← r.required "component" Component.ofJson?
  let status ← r.required "status" (Value.choice? Status.ofLabel?)
  let confidence ← r.required "confidence" (Value.choice? Confidence.ofLabel?)
  let usage ← r.required "usage" Usage.ofJson?
  let warnings ← r.required "warnings" (Value.list? Warning.ofJson?)
  let notes ← r.required "notes" (Value.list? Value.string?)
  return { component, status, confidence, usage, warnings, notes }

end ComponentResult
end DependencyUse
