/-
# Disks

A disk is a file tree with a current directory.  A path is followed piece by piece,
as it is written:

| piece | where it leads |
| --- | --- |
| nothing, `.` | where it is, which must be a directory |
| `..` | the directory above, from a directory |
| a name | the entry of that name, from a directory |

So `a/` and `a/.` are no files, and `a/../b` is nothing unless `a` is a directory.
The empty path leads nowhere.
-/

import DependencyUse.FileTree
import DependencyUse.Path
import DependencyUse.Text.Blank

namespace DependencyUse

/-- Why a path cannot be used. -/
inductive DiskFault where
  | missing
  | notDirectory
  | isDirectory
  | notText
deriving DecidableEq, Repr, Inhabited

/-- The text of a fault. -/
def DiskFault.message : DiskFault → String
  | .missing => "No such file or directory (os error 2)"
  | .notDirectory => "Not a directory (os error 20)"
  | .isDirectory => "Is a directory (os error 21)"
  | .notText => "stream did not contain valid UTF-8"

/-- A file tree, and the names that lead to the directories of a user. -/
structure Disk where
  tree : FileTree
  current : List String
  /-- the home directory, if the user has one -/
  home : Option (List String) := none
  /-- where programs keep their settings; `.config` in the home directory if nothing else
  is said -/
  configuration : Option (List String) := home.map (· ++ [".config"])
deriving Inhabited

namespace Disk

/-- Follows the pieces of a path from the place that `at_` leads to. -/
def follow (tree : FileTree) (at_ : List String) : List String → Except DiskFault (List String)
  | [] => .ok at_
  | piece :: pieces =>
    match tree.get? at_ with
    | none => .error .missing
    | some t =>
      if !t.isDir then .error .notDirectory
      else if piece = "" || piece = "." then follow tree at_ pieces
      else if piece = ".." then follow tree at_.dropLast pieces
      else if (t.child? piece).isSome then follow tree (at_ ++ [piece]) pieces
      else .error .missing

/-- Where the pieces of a path start. -/
def origin (d : Disk) (p : Path) : List String :=
  if p.isAbsolute then [] else d.current

/-- The names that lead to where a path leads. -/
def locate (d : Disk) (p : Path) : Except DiskFault (List String) :=
  if p.text.isEmpty then .error .missing
  else follow d.tree (d.origin p) (Text.split '/' p.text)

/-- What a path leads to. -/
def lookup (d : Disk) (p : Path) : Except DiskFault FileTree :=
  (d.locate p).bind fun names =>
    match d.tree.get? names with
    | some t => .ok t
    | none => .error .missing

/-- The path leads to a file. -/
def isFile (d : Disk) (p : Path) : Bool :=
  match d.lookup p with
  | .ok (.file _) => true
  | _ => false

/-- The path leads to a directory. -/
def isDir (d : Disk) (p : Path) : Bool :=
  match d.lookup p with
  | .ok (.dir _) => true
  | _ => false

/-- The path leads somewhere. -/
def exists? (d : Disk) (p : Path) : Bool :=
  match d.lookup p with
  | .ok _ => true
  | .error _ => false

/-- The text of a file. -/
def readText (d : Disk) (p : Path) : Except DiskFault String :=
  (d.lookup p).bind fun t =>
    match t with
    | .file (.text text) => .ok text
    | .file (.binary _) => .error .notText
    | .dir _ => .error .isDirectory

/-- The absolute path of some names. -/
def absolute (names : List String) : Path :=
  ⟨"/" ++ "/".intercalate names⟩

/-- The absolute path, without detours, of where a path leads. -/
def canonical? (d : Disk) (p : Path) : Option Path :=
  match d.locate p with
  | .ok names => some (absolute names)
  | .error _ => none

/-- Where a file that a path names would be: its directory must be there, and it may
itself be there as a file. -/
def target (d : Disk) (p : Path) : Except DiskFault (List String) :=
  if p.text.isEmpty then .error .missing
  else
    let pieces := Text.split '/' p.text
    match pieces.getLast? with
    | none => .error .missing
    | some last =>
      (follow d.tree (d.origin p) pieces.dropLast).bind fun names =>
        match d.tree.get? names with
        | none => .error .missing
        | some (.file _) => .error .notDirectory
        | some (.dir entries) =>
          if last = "" || last = "." || last = ".." then .error .isDirectory
          else
            match (FileTree.dir entries).child? last with
            | some (.dir _) => .error .isDirectory
            | _ => .ok (names ++ [last])

/-- The disk with `text` in the file that a path names. -/
def writeText (d : Disk) (p : Path) (text : String) : Except DiskFault Disk :=
  (d.target p).map fun names => { d with tree := d.tree.put names (.file (.text text)) }

end Disk
end DependencyUse
