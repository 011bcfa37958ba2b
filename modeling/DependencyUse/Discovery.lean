/-
# Finding source files

The files of a directory are found by walking its tree.  An entry is passed over, with
all that is in it, if

* it is a directory with a name that dependencies or build results have, or
* an ignore pattern matches its path from the root, or its name.

The root itself is never passed over.  Slashes at the end of a pattern do not count.
Of what is left, the source files are kept, in the order of paths.

An entry may be there and yet not be read.  The walk then meets an error in its place
(`meet`), and goes on if the error is one that is recovered (`search`).
-/

import DependencyUse.Error
import DependencyUse.Source.File

namespace DependencyUse

/-- Names of directories that are never walked. -/
def ignoredDirectories : List String :=
  ["node_modules", ".git", "dist", "build", "coverage", ".next", "out"]

/-- Where to look, and what to pass over. -/
structure Discovery where
  root : Path
  patterns : List Glob.Pattern
deriving Inhabited

namespace Discovery

/-- A pattern without the slashes at its end. -/
def trimmed (pattern : String) : String :=
  String.ofList (Text.dropEndWhile (· = '/') pattern.toList)

/-- Compiles patterns; the first mistake counts. -/
def compilePatterns (patterns : List String) : Except Error (List Glob.Pattern) :=
  patterns.mapM fun pattern =>
    match Glob.compile (trimmed pattern) with
    | .ok p => .ok p
    | .error fault => .error (.globPattern fault)

/-- A search below `root` that passes over what some patterns match. -/
def new (root : Path) (patterns : List String) : Except Error Discovery :=
  (compilePatterns patterns).map fun patterns => { root, patterns }

/-- Some pattern matches the path from the root, or the name. -/
def isExcluded (s : Discovery) (path : Path) : Bool :=
  let shown := path.displayedFrom s.root
  s.patterns.any fun pattern =>
    pattern.accepts shown.text || path.fileName?.any fun name => pattern.accepts name

/-- The entry is passed over. -/
def isPruned (s : Discovery) (path : Path) (name : String) (tree : FileTree) : Bool :=
  (tree.isDir && ignoredDirectories.contains name) || s.isExcluded path

mutual

/-- The source files of a tree at a path, in the order of the walk. -/
def walk (s : Discovery) (path : Path) : FileTree → List Path
  | .file _ => if path.isSource then [path] else []
  | .dir entries => walkEntries s path entries

/-- The source files of some entries of the directory at a path. -/
def walkEntries (s : Discovery) (path : Path) : List (String × FileTree) → List Path
  | [] => []
  | (name, tree) :: entries =>
    let here := path.join ⟨name⟩
    (if s.isPruned here name tree then [] else walk s here tree) ++ walkEntries s path entries

end

/-- The source files below the root, in the order of paths; none if there is nothing
at the root. -/
def discover (s : Discovery) (d : Disk) : List Path :=
  match d.lookup s.root with
  | .ok tree => (s.walk s.root tree).mergeSort fun a b => a.cmp b != .gt
  | .error _ => []

/-- Why an entry cannot be read. -/
structure EntryFault where
  /-- for want of a permission -/
  denied : Bool
  message : String
deriving DecidableEq, Repr, Inhabited

/-- The fault as an error of a walk. -/
def EntryFault.toError (fault : EntryFault) (path : Path) : Error :=
  .atPath path fault.denied fault.message

mutual

/-- What the walk of a tree at a path meets: its files, and an error for each entry that
cannot be read. -/
def meet (s : Discovery) (fault? : Path → Option EntryFault) (path : Path) :
    FileTree → List (Except Error Path)
  | .file _ =>
    match fault? path with
    | some fault => [.error (fault.toError path)]
    | none => [.ok path]
  | .dir entries =>
    match fault? path with
    | some fault => [.error (fault.toError path)]
    | none => meetEntries s fault? path entries

/-- What the walk meets of some entries of the directory at a path. -/
def meetEntries (s : Discovery) (fault? : Path → Option EntryFault) (path : Path) :
    List (String × FileTree) → List (Except Error Path)
  | [] => []
  | (name, tree) :: entries =>
    let here := path.join ⟨name⟩
    (if s.isPruned here name tree then [] else meet s fault? here tree)
      ++ meetEntries s fault? path entries

end

/-- What the walk of the root meets. -/
def met (s : Discovery) (fault? : Path → Option EntryFault) (d : Disk) :
    List (Except Error Path) :=
  match d.lookup s.root with
  | .ok tree => s.meet fault? s.root tree
  | .error fault => [.error (.atPath s.root false fault.message)]

/-- The source files below the root, in the order of paths, where some entries cannot be
read; the first error that is not recovered ends the search. -/
def search (s : Discovery) (fault? : Path → Option EntryFault) (d : Disk) :
    Except Error (List Path) := do
  let kept ← (s.met fault? d).mapM Error.recover
  return ((kept.filterMap id).filter Path.isSource).mergeSort fun a b => a.cmp b != .gt

end Discovery
end DependencyUse
