/-
# Source files

A source file is read into its imports and its call graph, or passed over with a
reason.

| checked in order | reason |
| --- | --- |
| it can be read as a text | the fault of the disk |
| its extension stands for a language | unsupported |
| the text is a module of that language | not a module |

A typed file only describes if one of the last two parts before its extension is
`d`, as in `x.d.ts` and `x.d.css.ts`.
-/

import DependencyUse.CallGraph.Use
import DependencyUse.Disk
import DependencyUse.Import.Site
import DependencyUse.Source.Reader

namespace DependencyUse

/-- The extensions of source files, in the order in which they are tried. -/
def sourceExtensions : List String := ["ts", "tsx", "mts", "cts", "js", "jsx", "mjs", "cjs"]

/-- A file with one of these endings only describes; it is never analysed. -/
def declarationEndings : List String := [".d.ts", ".d.mts", ".d.cts"]

/-- The path names a file to analyse. -/
def Path.isSource (p : Path) : Bool :=
  match p.fileName? with
  | none => false
  | some name =>
    !(declarationEndings.any fun ending => ending.toList.isSuffixOf name.toList)
      && p.extension?.any fun e => sourceExtensions.contains e

/-- The parts of a file name between its dots, the last ones first. -/
def dottedParts (name : String) : List String :=
  (Text.split '.' name).reverse

/-- The language of a file, by its name. -/
def Path.language? (p : Path) : Option Source.Language :=
  (p.extension?.bind Source.Language.ofExtension?).map fun language =>
    let described := ((dottedParts (p.fileName?.getD "")).take 3).contains "d"
    { language with declarations := language.typescript && !language.markup && described }

/-- Why a file is passed over. -/
inductive SkipReason where
  | unreadable (fault : DiskFault)
  | unsupported
  | notModule
deriving DecidableEq, Repr, Inhabited

/-- The text of a reason. -/
def SkipReason.message : SkipReason → String
  | .unreadable fault => "read error: " ++ fault.message
  | .unsupported => "unsupported file type"
  | .notModule => "syntax error"

/-- A file that is passed over. -/
structure SkippedFile where
  path : Path
  reason : SkipReason
deriving DecidableEq, Repr, Inhabited

/-- A file that was read. -/
structure ParsedFile where
  path : Path
  /-- the path that locations show -/
  displayPath : Path
  imports : List ImportRecord
  callGraph : CallGraph
deriving DecidableEq, Inhabited

namespace Disk

/-- The text and the module of a source file. -/
def readModule (d : Disk) (p : Path) : Except SkippedFile (String × Source.Module) :=
  match d.readText p with
  | .error fault => .error ⟨p, .unreadable fault⟩
  | .ok text =>
    match p.language? with
    | none => .error ⟨p, .unsupported⟩
    | some language =>
      match Source.Module.read? language text with
      | none => .error ⟨p, .notModule⟩
      | some m => .ok (text, m)

/-- Reads the imports and the calls of a source file. -/
def parseFile (d : Disk) (p display : Path) : Except SkippedFile ParsedFile :=
  (d.readModule p).map fun (text, m) =>
    let locate := (LineIndex.ofText text).locate display
    { path := p, displayPath := display, imports := m.imports locate, callGraph := m.callGraph locate }

/-- Reads the imports of a source file. -/
def parseImports (d : Disk) (p display : Path) : Except SkippedFile (List ImportRecord) :=
  (d.readModule p).map fun (text, m) => m.imports ((LineIndex.ofText text).locate display)

end Disk
end DependencyUse
