/-
# Reports as text

A report has a block for each component and a line that sums up:

| line | shown |
| --- | --- |
| name, version, status, confidence | always |
| `used`, `referenced`, `vulnerable functions called` | if there are any |
| `import styles` | if there are any, with all details |
| `at` a location | the first three, or all of them with all details |
| a warning | if it is no mere information, or with all details |
| `note` | always |

Colours are put around a text by an escape sequence before it and one after it, and
change nothing else.
-/

import DependencyUse.Verdict.Basic

namespace DependencyUse
namespace Report

/-! ### Colours -/

/-- A way to show a text. -/
inductive Style where
  | bold
  | dimmed
  | yellow
  | boldRed
  | boldYellow
  | boldPurple
  | boldGreen
  | boldCyan
deriving DecidableEq, Repr, Inhabited

/-- The codes of a style. -/
def Style.codes : Style → String
  | .bold => "1"
  | .dimmed => "2"
  | .yellow => "33"
  | .boldRed => "1;31"
  | .boldYellow => "1;33"
  | .boldPurple => "1;35"
  | .boldGreen => "1;32"
  | .boldCyan => "1;36"

/-- The escape sequence of some codes. -/
def escape (codes : String) : String :=
  "\x1b[" ++ codes ++ "m"

/-- A text in a style, if colours are wanted. -/
def paint (colours : Bool) (style : Style) (text : String) : String :=
  if colours then escape style.codes ++ text ++ escape "0" else text

/-- The style of a status. -/
def statusStyle : Status → Style
  | .reachable => .boldRed
  | .imported => .boldYellow
  | .indirect => .boldPurple
  | .notReachable => .boldGreen
  | .unknown => .boldCyan

/-- A status in capitals. -/
def statusText : Status → String
  | .reachable => "REACHABLE"
  | .imported => "IMPORTED"
  | .indirect => "INDIRECT"
  | .notReachable => "NOT_REACHABLE"
  | .unknown => "UNKNOWN"

/-! ### Counts -/

/-- How many components have each status. -/
structure Counts where
  reachable : Nat
  imported : Nat
  indirect : Nat
  notReachable : Nat
  unknown : Nat
  /-- components of which an affected function is called -/
  vulnerable : Nat
deriving DecidableEq, Repr, Inhabited

/-- Counts the components of some verdicts. -/
def Counts.ofResults (results : List ComponentResult) : Counts :=
  let having (status : Status) := (results.filter fun r => r.status == status).length
  { reachable := having .reachable
    imported := having .imported
    indirect := having .indirect
    notReachable := having .notReachable
    unknown := having .unknown
    vulnerable := (results.filter ComponentResult.callsVulnerable).length }

/-- All components. -/
def Counts.total (c : Counts) : Nat :=
  c.reachable + c.imported + c.indirect + c.notReachable + c.unknown

/-! ### Blocks -/

/-- How many locations are shown without all details. -/
def maxLocations : Nat := 3

/-- A line of names, if there are any. -/
def namesLine (title : String) (names : List String) : List String :=
  if names.isEmpty then [] else ["  " ++ title ++ ": " ++ ", ".intercalate names]

/-- The first line of a block. -/
def titleLine (colours : Bool) (r : ComponentResult) : String :=
  let version :=
    if r.component.version.isEmpty then "" else " " ++ paint colours .dimmed r.component.version
  paint colours .bold r.component.name ++ version ++ "  "
    ++ paint colours (statusStyle r.status) (statusText r.status)
    ++ " (" ++ r.confidence.label ++ ")"

/-- The lines of the locations. -/
def locationLines (colours details : Bool) (locations : List Location) : List String :=
  let shown := if details then locations.length else maxLocations
  (locations.take shown).map (fun l => "  at " ++ paint colours .dimmed l.text)
    ++ (if locations.length > shown then
      ["  ... and " ++ toString (locations.length - shown) ++ " more"] else [])

/-- The line of a warning. -/
def warningLine (colours : Bool) (w : Warning) : String :=
  let code := w.severity.label ++ "[" ++ w.code.label ++ "]"
  let code := if w.severity = .warning then paint colours .yellow code else code
  let place := match w.location with
    | some l => " " ++ paint colours .dimmed ("(" ++ l.text ++ ")")
    | none => ""
  "  " ++ code ++ ": " ++ w.message ++ place

/-- The lines of a block. -/
def blockLines (colours details : Bool) (r : ComponentResult) : List String :=
  let u := r.usage
  [titleLine colours r]
    ++ namesLine "used" u.usedMembers
    ++ namesLine "referenced" u.referencedMembers
    ++ (namesLine "vulnerable functions called" u.vulnerableFunctionsCalled).map
        (paint colours .boldRed)
    ++ (if details then namesLine "import styles" (u.importStyles.map ImportKind.label) else [])
    ++ locationLines colours details u.locations
    ++ (r.warnings.filter fun w => details || w.severity == .warning).map (warningLine colours)
    ++ r.notes.map ("  note: " ++ ·)

/-- Lines with their ends. -/
def unlines (lines : List String) : String :=
  String.join (lines.map (· ++ "\n"))

/-- The line that sums up. -/
def summaryLine (colours : Bool) (results : List ComponentResult) : String :=
  let c := Counts.ofResults results
  let line := toString c.total ++ " components: " ++ toString c.reachable ++ " reachable, "
    ++ toString c.imported ++ " imported, " ++ toString c.indirect ++ " indirect, "
    ++ toString c.notReachable ++ " not reachable, " ++ toString c.unknown ++ " unknown"
  if c.vulnerable > 0 then
    line ++ paint colours .boldRed ("; " ++ toString c.vulnerable ++ " call vulnerable functions")
  else line

/-- A report with a block for each component. -/
def text (colours details : Bool) (results : List ComponentResult) : String :=
  String.join (results.map fun r => unlines (blockLines colours details r ++ [""]))
    ++ unlines [summaryLine colours results]

/-- A report with a line for each component. -/
def compact (results : List ComponentResult) : String :=
  unlines (results.map fun r =>
    r.component.name ++ " " ++ r.status.label ++ " " ++ r.confidence.label)

end Report
end DependencyUse
