/-
# Analysing a source directory

The steps of an analysis:

1. the source files of the directory are found,
2. each is read into its imports and its call graph,
3. the relative imports are followed through re-exports,
4. every component is judged by what was found.

An analysis is broken off, with no error to tell, if the clock cannot show the time at
which it is to stop.
-/

import DependencyUse.BoundedRun
import DependencyUse.Discovery
import DependencyUse.Reexport.Index
import DependencyUse.Verdict.Classify

namespace DependencyUse

/-- How an analysis is done. -/
structure Options where
  /-- how many files are read at a time -/
  concurrency : Nat := 10
  /-- how many files a chain of re-exports may pass -/
  maxReexportDepth : Nat := 5
  ignorePatterns : List String := []
  /-- milliseconds after which no more files are read -/
  timeout : Option Nat := none
deriving DecidableEq, Repr, Inhabited

/-- How work ends that does not succeed. -/
inductive Failure where
  | error (e : Error)
  /-- it is broken off, and so is the program -/
  | brokenOff
deriving DecidableEq, Repr, Inhabited

namespace Analysis

/-- The source directory as an absolute path in normal form. -/
def root (d : Disk) (dir : Path) : Except Error Path :=
  if d.isDir dir then .ok ((d.canonical? dir).getD dir).normalize
  else .error (.invalidPath dir)

/-- The files that were read. -/
def parsed (outcomes : List (Except SkippedFile ParsedFile)) : List ParsedFile :=
  outcomes.filterMap fun
    | .ok file => some file
    | .error _ => none

/-- The files that were passed over. -/
def skipped (outcomes : List (Except SkippedFile ParsedFile)) : List SkippedFile :=
  outcomes.filterMap fun
    | .ok _ => none
    | .error file => some file

/-- Reads the source files of a directory, with the reports on how far it is, where the clock
can show the time at which reading is to stop. -/
def project (d : Disk) (o : Options) (dir : Path) : Except Error (Project × List Progress) := do
  let root ← root d dir
  let search ← Discovery.new root o.ignorePatterns
  -- every entry of a disk can be read, and the system starts the workers
  let files ← search.search (fun _ => none) d
  let _ ← BoundedRun.pool o.concurrency none
  let run := BoundedRun.run (Deadline.ofTimeout o.timeout)
    (fun path => d.parseFile path (path.displayedFrom root)) files
  return ({ root
            files := (parsed run.results).mergeSort fun a b => a.path.cmp b.path != .gt
            skipped := (skipped run.results).mergeSort fun a b => a.path.cmp b.path != .gt
            discovered := files.length
            completed := run.completed }, run.updates)

/-- Reads the source files of a directory, if the clock shows `now` milliseconds at the start. -/
def projectAt (now : Nat) (d : Disk) (o : Options) (dir : Path) :
    Except Failure (Project × List Progress) := do
  let _ ← (root d dir).mapError .error
  if !Deadline.isShown now o.timeout then .error .brokenOff
  (project d o dir).mapError .error

/-- Follows the imports of a project. -/
def traces (d : Disk) (o : Options) (p : Project) : TraceIndex :=
  TraceIndex.build d o.maxReexportDepth p

/-- The verdicts on some components of a project. -/
def judge (d : Disk) (o : Options) (p : Project) (components : List Component) :
    List ComponentResult :=
  let index := traces d o p
  components.map (Verdict.classify p index)

/-- The verdicts on some components of a source directory, with the reports on how
far it is; the clock shows `now` milliseconds. -/
def run (now : Nat) (d : Disk) (o : Options) (dir : Path) (components : List Component) :
    Except Failure (List ComponentResult × List Progress) := do
  let (p, updates) ← projectAt now d o dir
  return (judge d o p components, updates)

end Analysis
end DependencyUse
