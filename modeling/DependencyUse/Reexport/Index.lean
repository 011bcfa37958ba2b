/-
# The traces of a project

Every relative import of a project that is neither a re-export nor of types only is
followed.  Kept are the outcomes that hold a chain or a warning, and of the warnings

* one for each set of files that form a cycle,
* one for each code and location otherwise,

each where it comes first.  What the traces ask of the disk is remembered from one to
the next.
-/

import DependencyUse.ParseCache
import DependencyUse.Project
import DependencyUse.Reexport.Trace
import DependencyUse.Resolve

namespace DependencyUse

/-- What is remembered between traces. -/
structure Memory where
  existence : ExistenceCache
  parses : ParseCache
deriving DecidableEq, Repr, Inhabited

namespace Memory

/-- The imports of a file, from memory. -/
def imports (d : Disk) (p : Path) : StateM Memory (List ImportRecord) := do
  let memory ← get
  let (records, parses) := (ParseCache.imports d p).run memory.parses
  set { memory with parses }
  return records

/-- The file that a specifier names, from memory. -/
def resolve (d : Disk) (specifier : String) (source : Path) : StateM Memory (Option Path) := do
  let memory ← get
  let (target, existence) := (ExistenceCache.resolve d specifier source).run memory.existence
  set { memory with existence }
  return target

/-- A search that asks the memory. -/
def view (d : Disk) (display : Path → Path) : View (StateM Memory) where
  imports := imports d
  resolve := resolve d
  display := display

end Memory

/-- An import that was followed: the file and the record by their places in the
project. -/
structure TracedImport where
  fileIndex : Nat
  recordIndex : Nat
  outcome : TraceOutcome
deriving DecidableEq, Repr, Inhabited

/-- The traces of a project. -/
structure TraceIndex where
  traced : List TracedImport := []
  warnings : List Warning := []
deriving DecidableEq, Repr, Inhabited

namespace TraceIndex

/-- An import that is followed. -/
def isTraced (r : ImportRecord) : Bool :=
  r.isRelative && !r.typeOnly && !r.isReexport

/-- The imports of a file that are followed, with their places. -/
def fileTargets (fileIndex : Nat) (file : ParsedFile) : List (Nat × Nat × Path × ImportRecord) :=
  (file.imports.zipIdx.filter fun (r, _) => isTraced r).map fun (r, i) => (fileIndex, i, file.path, r)

/-- The imports of a project that are followed, with their places. -/
def targets (files : List ParsedFile) : List (Nat × Nat × Path × ImportRecord) :=
  files.zipIdx.flatMap fun (file, i) => fileTargets i file

/-- Follows imports one after the other. -/
def follow {m : Type → Type} [Monad m] (view : View m) (maxDepth : Nat) :
    List (Nat × Nat × Path × ImportRecord) → m (List TracedImport)
  | [] => return []
  | (fileIndex, recordIndex, path, r) :: rest => do
    let outcome ← Trace.trace view maxDepth r path
    let others ← follow view maxDepth rest
    return if outcome.isEmpty then others else { fileIndex, recordIndex, outcome } :: others

/-- A warning of a trace, with the files of its cycle if it is a circular one. -/
structure Noted where
  cycle : Option (List Path)
  warning : Warning

/-- The warnings of an outcome, the circular ones first. -/
def noted (o : TraceOutcome) : List Noted :=
  o.cycleWarnings.map (fun (members, w) => ⟨some members, w⟩)
    ++ (o.warnings.filter fun w => w.code != .circularReexport).map fun w => ⟨none, w⟩

/-- The same files of a cycle; or no cycles, and the same code and location. -/
def Noted.same (a b : Noted) : Bool :=
  match a.cycle, b.cycle with
  | some xs, some ys => xs == ys
  | none, none => a.warning.same b.warning
  | _, _ => false

/-- The warnings of some outcomes, each once. -/
def warningsOf (outcomes : List TraceOutcome) : List Warning :=
  (distinctBy Noted.same (outcomes.flatMap noted)).map Noted.warning

/-- The index of some traces. -/
def ofTraced (traced : List TracedImport) : TraceIndex where
  traced := traced
  warnings := warningsOf (traced.map TracedImport.outcome)

/-- What is remembered before the first trace of a project. -/
def freshMemory (p : Project) : Memory where
  existence := {}
  parses := ({ root := p.root } : ParseCache).seed p.files

/-- Follows the imports of a project. -/
def build (d : Disk) (maxDepth : Nat) (p : Project) : TraceIndex :=
  let view := Memory.view d fun path => path.displayedFrom p.root
  ofTraced ((follow view maxDepth (targets p.files)).run (freshMemory p)).1

/-- The chains of all traces. -/
def chains (t : TraceIndex) : List ReexportChain :=
  t.traced.flatMap fun traced => traced.outcome.chains

/-- A location at which some chain ends. -/
def isOrigin (t : TraceIndex) (l : Location) : Bool :=
  t.chains.any fun c => c.origin.same l

/-- The number of chains. -/
def chainCount (t : TraceIndex) : Nat :=
  t.chains.length

/-- The locations at which chains end, each once, as texts in order. -/
def originTexts (t : TraceIndex) : List String :=
  ((distinctBy Location.same (t.chains.map ReexportChain.origin)).map Location.text).mergeSort

end TraceIndex
end DependencyUse
