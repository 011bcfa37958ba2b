/-
# Verdicts from evidence

| best evidence | status | confidence |
| --- | --- | --- |
| a named binding is called | reachable | high |
| a module is used as a whole, loaded by `import()`, or called through a chain | reachable | medium |
| an import | imported | medium |
| a chain | indirect | medium |
| none, not all files looked at | unknown | low |
| none, module names are computed somewhere | not reachable | medium |
| none | not reachable | high |

A call of a function that a vulnerability affects makes the confidence high.  A
re-export at which a chain ends counts through the chain only.
-/

import DependencyUse.Project
import DependencyUse.Reexport.Index
import DependencyUse.Verdict.Evidence

namespace DependencyUse
namespace Verdict

/-- A record that counts as a direct import of the component. -/
def isDirect (c : Component) (t : TraceIndex) (r : ImportRecord) : Bool :=
  !r.typeOnly && c.matchesModule r.specifier && !(r.isReexport && t.isOrigin r.location)

/-- The evidence of the imports that name the component. -/
def directEvidence (c : Component) (p : Project) (t : TraceIndex) : List Evidence :=
  p.files.zipIdx.flatMap fun (file, i) =>
    (file.imports.filter (isDirect c t)).map (Evidence.ofDirect c file.callGraph i)

/-- The evidence of the chains of one traced import. -/
def tracedEvidence (c : Component) (p : Project) (traced : TracedImport) : List Evidence :=
  match p.files[traced.fileIndex]? with
  | none => []
  | some file =>
    match file.imports[traced.recordIndex]? with
    | none => []
    | some r =>
      (traced.outcome.chains.filter fun chain => c.matchesModule chain.specifier).map
        (Evidence.ofChain file.callGraph traced.fileIndex r)

/-- The evidence of the chains that end at the component. -/
def chainEvidence (c : Component) (p : Project) (t : TraceIndex) : List Evidence :=
  t.traced.flatMap (tracedEvidence c p)

/-- All evidence for a component. -/
def evidence (c : Component) (p : Project) (t : TraceIndex) : Evidence :=
  Evidence.sum (directEvidence c p t ++ chainEvidence c p t)

/-- Status and confidence by the best evidence. -/
def conclude (p : Project) (e : Evidence) : Status × Confidence :=
  if e.namedCall then (.reachable, .high)
  else if e.wholeModuleUse || e.dynamicLoad || e.barrelCall then (.reachable, .medium)
  else if e.directImport then (.imported, .medium)
  else if e.chain then (.indirect, .medium)
  else if !p.completed then (.unknown, .low)
  else if p.hasDynamicImports then (.notReachable, .medium)
  else (.notReachable, .high)

/-- The warning that files were passed over, if any were. -/
def skippedWarnings (p : Project) : List Warning :=
  if p.skipped.isEmpty then []
  else [Warning.new .skippedFiles
    (toString p.skipped.length ++ " file(s) could not be parsed and were excluded")]

/-- The warning that a name comes through an `export *`, where a chain is relied on. -/
def starWarnings (c : Component) (e : Evidence) : List Warning :=
  let relied := !e.namedCall && !e.wholeModuleUse && !e.dynamicLoad && !e.directImport
  match e.starChain with
  | some origin =>
    if relied || (e.barrelCall && !e.namedCall) then
      [Warning.at_ .starImport
        ("'" ++ c.name ++ "' is forwarded by an export * declaration") origin]
    else []
  | none => []

/-- The warning of a place where code is made at run time. -/
def dynamicWarning (d : DynamicCode) : Warning :=
  Warning.at_ (if d.kind.hidesImports then .dynamicImport else .dynamicCode)
    (d.kind.text ++ ": " ++ d.context) d.location

/-- The warnings of the files that gave evidence. -/
def dynamicWarnings (p : Project) (e : Evidence) : List Warning :=
  p.files.zipIdx.flatMap fun (file, i) =>
    if e.touched.contains i then file.callGraph.dynamicCode.map dynamicWarning else []

/-- The warning that an import may be hidden. -/
def hiddenWarnings (c : Component) (p : Project) (status : Status) : List Warning :=
  if status = .notReachable && p.hasDynamicImports then
    [{ Warning.new .dynamicImport
        ("The project computes module names at runtime; imports of '" ++ c.name
          ++ "' may be hidden") with location := p.firstComputedImport? }]
  else []

/-- How far the analysis came. -/
def progressText (p : Project) : String :=
  toString p.files.length ++ " of " ++ toString p.discovered ++ " files"

/-- The warning that not every file was looked at. -/
def partialWarnings (p : Project) (status : Status) : List Warning :=
  if !p.completed && status != .unknown then
    [Warning.new .partialAnalysis
      ("Analysis timed out after " ++ progressText p ++ "; the result may be incomplete")]
  else []

/-- All warnings of a verdict. -/
def warnings (c : Component) (p : Project) (t : TraceIndex) (e : Evidence) (status : Status) :
    List Warning :=
  Warning.distinct (e.warnings
    ++ (if !e.namedCall && e.wholeModuleUse then e.wholeModuleWarnings else [])
    ++ starWarnings c e
    ++ dynamicWarnings p e
    ++ hiddenWarnings c p status
    ++ (if status != .reachable then t.warnings else [])
    ++ partialWarnings p status
    ++ skippedWarnings p)

/-- The notes of a verdict. -/
def notes (c : Component) (p : Project) (status : Status) (vulnerable : NameSet) : List String :=
  let affected := c.affectedFunctions
  let unknown :=
    if status = .unknown then
      ["Analysis timed out after " ++ progressText p ++ " before any evidence for '" ++ c.name
        ++ "' was found"]
    else []
  let functions :=
    if !vulnerable.isEmpty then
      ["Calls affected function(s): " ++ ", ".intercalate vulnerable.toList]
    else if status = .reachable && !affected.isEmpty then
      ["None of the affected functions (" ++ ", ".intercalate affected.toList
        ++ ") were observed being called"]
    else []
  let observed := match status with
    | .imported => ["Imported, but no use was observed"]
    | .indirect => ["Only reached through re-exports; no use was observed"]
    | _ => []
  unknown ++ functions ++ observed

/-- The verdict that some evidence leads to. -/
def ofEvidence (c : Component) (p : Project) (t : TraceIndex) (e : Evidence) : ComponentResult :=
  let (status, confidence) := conclude p e
  let used := NameSet.ofList e.used
  let referenced := NameSet.ofList e.referenced
  let vulnerable := used.inter c.affectedFunctions
  { component := c
    status
    confidence := if vulnerable.isEmpty then confidence else .high
    usage :=
      { importStyles := ImportKind.all.filter fun kind => e.styles.contains kind
        usedMembers := used.toList
        referencedMembers := (referenced.diff used).toList
        vulnerableFunctionsCalled := vulnerable.toList
        locations := sortUnique Location.cmp e.locations }
    warnings := warnings c p t e status
    notes := notes c p status vulnerable }

/-- The verdict where no file could be read. -/
def nothingParsed (c : Component) (p : Project) : ComponentResult where
  component := c
  status := .unknown
  confidence := .low
  usage := {}
  warnings := skippedWarnings p
  notes :=
    [if p.discovered = 0 then "No source files were found"
      else "None of the " ++ toString p.discovered ++ " discovered source files could be parsed"]

/-- The verdict on a component. -/
def classify (p : Project) (t : TraceIndex) (c : Component) : ComponentResult :=
  if p.files.isEmpty then nothingParsed c p else ofEvidence c p t (evidence c p t)

end Verdict
end DependencyUse
