/-
# Files that relative specifiers name

A relative specifier is taken from the directory of the importing file.  Of the paths
it may mean, the first one that is a file counts:

| tried in order | for `./x` | for `./x.js` |
| --- | --- | --- |
| the path itself | `x` | `x.js` |
| the typed file it is compiled from | | `x.ts`, `x.tsx` |
| each source extension appended | `x.ts`, `x.tsx`, … `x.cjs` | `x.js.ts`, … |
| the index of a directory | `x/index.ts`, … `x/index.cjs` | `x.js/index.ts`, … |

Whether a path is a file is asked once and remembered; paths with the same steps are
one path.
-/

import DependencyUse.Source.File

namespace DependencyUse

/-- The extensions of the files that a compiled file may come from. -/
def typedSiblings : String → List String
  | "js" => ["ts", "tsx"]
  | "jsx" => ["tsx"]
  | "mjs" => ["mts"]
  | "cjs" => ["cts"]
  | _ => []

/-- The paths that a path may mean, in order. -/
def Path.candidates (p : Path) : List Path :=
  let siblings := (p.extension?.map typedSiblings).getD []
  [p] ++ siblings.map p.withExtension
    ++ sourceExtensions.map (fun e => ⟨p.text ++ "." ++ e⟩)
    ++ sourceExtensions.map (fun e => p.join ⟨"index." ++ e⟩)

/-- The path that a specifier in a file points to. -/
def Path.relativeTarget (source : Path) (specifier : String) : Path :=
  (((source.parent?).getD source).join ⟨specifier⟩).normalize

/-- The file that a specifier in a file names, asked of the disk. -/
def Disk.resolve? (d : Disk) (specifier : String) (source : Path) : Option Path :=
  if isRelative specifier then (source.relativeTarget specifier).candidates.find? d.isFile
  else none

/-- What is remembered of which paths are files. -/
structure ExistenceCache where
  answers : List (List Path.Step × Bool) := []
deriving DecidableEq, Repr, Inhabited

namespace ExistenceCache

/-- The answer that is remembered for a path. -/
def get? (c : ExistenceCache) (p : Path) : Option Bool :=
  c.answers.lookup p.steps

/-- Whether a path is a file: what is remembered, or else what the disk says, which is
then remembered. -/
def isFile (d : Disk) (p : Path) : StateM ExistenceCache Bool := do
  match (← get).get? p with
  | some answer => return answer
  | none =>
    let answer := d.isFile p
    modify fun c => ⟨(p.steps, answer) :: c.answers⟩
    return answer

/-- The first of some paths that is a file. -/
def firstFile (d : Disk) : List Path → StateM ExistenceCache (Option Path)
  | [] => return none
  | p :: ps => do
    if ← isFile d p then return some p else firstFile d ps

/-- The file that a specifier in a file names. -/
def resolve (d : Disk) (specifier : String) (source : Path) :
    StateM ExistenceCache (Option Path) :=
  if isRelative specifier then firstFile d (source.relativeTarget specifier).candidates
  else return none

end ExistenceCache
end DependencyUse
