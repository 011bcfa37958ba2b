/-
# Call graphs as JSON

| value | written as |
| --- | --- |
| a call | `callee`, `receiverName` or `null`, `kind`, `location` |
| code made at run time | `kind`, `location`, `context` |
| a call graph | `callSites`, `calledNames`, `referencedNames`, `dynamicCode` |

Sets of names are lists in increasing order; a list that is read may have any order
and repetitions.
-/

import DependencyUse.CallGraph.Basic
import DependencyUse.Encoding.Import

namespace DependencyUse

open Json (Value)

namespace CallSite

/-- A call as a JSON object. -/
def toJson (c : CallSite) : Value :=
  .object [("callee", .string c.callee), ("receiverName", .optional .string c.receiver),
    ("kind", .string c.kind.label), ("location", c.location.toJson)]

/-- Reads a call. -/
def ofJson? (v : Value) : Option CallSite := do
  let r ← v.record? ["callee", "receiverName", "kind", "location"]
  let callee ← r.required "callee" Value.string?
  let receiver ← r.nullable "receiverName" Value.string?
  let kind ← r.required "kind" (Value.choice? CallKind.ofLabel?)
  let location ← r.required "location" Location.ofJson?
  return { callee, receiver, kind, location }

end CallSite

namespace DynamicCode

/-- Code made at run time as a JSON object. -/
def toJson (d : DynamicCode) : Value :=
  .object [("kind", .string d.kind.label), ("location", d.location.toJson),
    ("context", .string d.context)]

/-- Reads code made at run time. -/
def ofJson? (v : Value) : Option DynamicCode := do
  let r ← v.record? ["kind", "location", "context"]
  let kind ← r.required "kind" (Value.choice? DynamicKind.ofLabel?)
  let location ← r.required "location" Location.ofJson?
  let context ← r.required "context" Value.string?
  return { kind, location, context }

end DynamicCode

namespace NameSet

/-- A set of names as a JSON list. -/
def toJson (s : NameSet) : Value := .strings s.toList

/-- Reads a set of names. -/
def ofJson? (v : Value) : Option NameSet := (v.list? Value.string?).map NameSet.ofList

end NameSet

namespace CallGraph

/-- A call graph as a JSON object. -/
def toJson (g : CallGraph) : Value :=
  .object [("callSites", .array (g.callSites.map CallSite.toJson)),
    ("calledNames", g.calledNames.toJson), ("referencedNames", g.referencedNames.toJson),
    ("dynamicCode", .array (g.dynamicCode.map DynamicCode.toJson))]

/-- Reads a call graph. -/
def ofJson? (v : Value) : Option CallGraph := do
  let r ← v.record? ["callSites", "calledNames", "referencedNames", "dynamicCode"]
  let callSites ← r.required "callSites" (Value.list? CallSite.ofJson?)
  let calledNames ← r.required "calledNames" NameSet.ofJson?
  let referencedNames ← r.required "referencedNames" NameSet.ofJson?
  let dynamicCode ← r.required "dynamicCode" (Value.list? DynamicCode.ofJson?)
  return { callSites, calledNames, referencedNames, dynamicCode }

end CallGraph
end DependencyUse
