/-
# Projects and traces as JSON

| value | written as |
| --- | --- |
| a file that was read | `path`, `displayPath`, `imports`, `callGraph` |
| a file that was passed over | `path`, `reason` |
| a project | `root`, `files`, `skipped`, `discovered`, `completed`, `hasDynamicImports` |
| a chain | `originalModule`, `fileChain`, `exportedNames`, `forwarded`, `depthReached`, `throughStar`, `origin` |
| an outcome | `chains`, `warnings`, `cycles`, `empty` |
| the traces of a project | `traced`, `warnings`, `chainCount`, `origins` |
-/

import DependencyUse.Encoding.CallGraph
import DependencyUse.Encoding.Result
import DependencyUse.Reexport.Index

namespace DependencyUse

open Json (Value)

namespace SkippedFile

/-- A file that was passed over as a JSON object. -/
def toJson (s : SkippedFile) : Value :=
  .object [("path", s.path.toJson), ("reason", .string s.reason.message)]

end SkippedFile

namespace ParsedFile

/-- A file that was read as a JSON object. -/
def toJson (f : ParsedFile) : Value :=
  .object [("path", f.path.toJson), ("displayPath", f.displayPath.toJson),
    ("imports", .array (f.imports.map ImportRecord.toJson)), ("callGraph", f.callGraph.toJson)]

end ParsedFile

namespace Project

/-- A project as a JSON object. -/
def toJson (p : Project) : Value :=
  .object [("root", p.root.toJson), ("files", .array (p.files.map ParsedFile.toJson)),
    ("skipped", .array (p.skipped.map SkippedFile.toJson)), ("discovered", .nat p.discovered),
    ("completed", .bool p.completed), ("hasDynamicImports", .bool p.hasDynamicImports)]

end Project

namespace ReexportChain

/-- A chain as a JSON object. -/
def toJson (c : ReexportChain) : Value :=
  .object [("originalModule", .string c.specifier), ("fileChain", .array (c.files.map Path.toJson)),
    ("exportedNames", .strings c.exportedNames),
    ("forwarded", .array (c.forwarded.map BoundName.toJson)), ("depthReached", .nat c.depth),
    ("throughStar", .bool c.throughStar), ("origin", c.origin.toJson)]

/-- Reads a chain. -/
def ofJson? (v : Value) : Option ReexportChain := do
  let r ← v.record? ["originalModule", "fileChain", "exportedNames", "forwarded", "depthReached",
    "throughStar", "origin"]
  let specifier ← r.required "originalModule" Value.string?
  let files ← r.required "fileChain" (Value.list? Path.ofJson?)
  let exportedNames ← r.required "exportedNames" (Value.list? Value.string?)
  let forwarded ← r.required "forwarded" (Value.list? BoundName.ofJson?)
  let depth ← r.required "depthReached" (Value.natBelow? (Nat.pow 2 64))
  let throughStar ← r.required "throughStar" Value.bool?
  let origin ← r.required "origin" Location.ofJson?
  return { specifier, files, exportedNames, forwarded, depth, throughStar, origin }

end ReexportChain

namespace TraceOutcome

/-- The fields of an outcome. -/
def jsonFields (o : TraceOutcome) : List (String × Value) :=
  [("chains", .array (o.chains.map ReexportChain.toJson)),
    ("warnings", .array (o.warnings.map Warning.toJson)),
    ("cycles", .array (o.cycles.map fun members => .array (members.map Path.toJson))),
    ("empty", .bool o.isEmpty)]

/-- An outcome as a JSON object. -/
def toJson (o : TraceOutcome) : Value :=
  .object o.jsonFields

end TraceOutcome

namespace TracedImport

/-- A traced import as a JSON object. -/
def toJson (t : TracedImport) : Value :=
  .object [("fileIndex", .nat t.fileIndex), ("recordIndex", .nat t.recordIndex),
    ("outcome", t.outcome.toJson)]

end TracedImport

namespace TraceIndex

/-- The traces of a project as a JSON object. -/
def toJson (t : TraceIndex) : Value :=
  .object [("traced", .array (t.traced.map TracedImport.toJson)),
    ("warnings", .array (t.warnings.map Warning.toJson)), ("chainCount", .nat t.chainCount),
    ("origins", .strings t.originTexts)]

end TraceIndex
end DependencyUse
