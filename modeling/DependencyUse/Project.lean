/-
# Projects

A project is what reading a source directory yields: the files that were read and
those that were passed over, each by path, how many were found, and whether all of
them were looked at.
-/

import DependencyUse.Ordered
import DependencyUse.Source.File

namespace DependencyUse

/-- The files of a source directory. -/
structure Project where
  root : Path
  files : List ParsedFile
  skipped : List SkippedFile
  /-- the number of files found -/
  discovered : Nat
  /-- every file found was looked at -/
  completed : Bool
deriving DecidableEq, Inhabited

namespace Project

/-- Some file computes the name of a module that it loads. -/
def hasDynamicImports (p : Project) : Bool :=
  p.files.any fun f => f.callGraph.hasDynamicImports

/-- The file with a path; the files are in the order of paths. -/
def file? (p : Project) (path : Path) : Option ParsedFile :=
  searchBy (fun f => f.path.cmp path) p.files.toArray

/-- The first place at which a module with a computed name is loaded. -/
def firstComputedImport? (p : Project) : Option Location :=
  ((p.files.flatMap fun f => f.callGraph.dynamicCode).find? fun d => d.kind.hidesImports).map
    DynamicCode.location

end Project
end DependencyUse
