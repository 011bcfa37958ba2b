/-
# Sources of settings

| source | priority | sets |
| --- | --- | --- |
| environment | 10 | source directory, components, patterns, depth, concurrency, timeout, format |
| file | 20 | any setting |
| command line | 30 | any setting |

A file is a TOML table with one key for each setting; other keys are passed over.  In
the environment a variable is named by a prefix, an underscore and a key; patterns are
separated by commas, and blanks around a value do not matter.

`.reachabilityignore` in the source directory has one more pattern on each line that
is not empty and does not start with `#`.
-/

import DependencyUse.Decimal.Natural
import DependencyUse.Settings.Check
import DependencyUse.Toml.Document

namespace DependencyUse

/-! ### Files -/

namespace Toml
namespace Value

/-- A text. -/
def string? : Value → Option String
  | .string s => some s
  | _ => none

/-- A path. -/
def path? (v : Value) : Option Path :=
  v.string?.map Path.mk

/-- `true` or `false`. -/
def boolean? : Value → Option Bool
  | .boolean b => some b
  | _ => none

/-- A natural number of 64 bits. -/
def word? : Value → Option Nat
  | .integer (.ofNat n) => if n < Nat.pow 2 64 then some n else none
  | _ => none

/-- A list of texts. -/
def strings? : Value → Option (List String)
  | .list items => items.mapM string?
  | _ => none

/-- The name of an alternative, or a table with the name alone and nothing for it. -/
def choice? : Value → Option String
  | .string label => some label
  | .table _ [(label, .list [])] => some label
  | .table _ [(label, .table _ [])] => some label
  | _ => none

end Value

/-- The value of a key, if it is there. -/
def Table.optional {α : Type} (t : Table) (key : String) (decode : Value → Option α) :
    Option (Option α) :=
  match t.get? key with
  | none => some none
  | some v => (decode v).map some

end Toml

namespace Layer

open Toml (Table)

/-- The layer of a TOML table, if every value is of its kind. -/
def ofTable? (t : Table) : Option Layer := do
  let sourceDir ← t.optional "source_dir" Toml.Value.path?
  let componentsFile ← t.optional "components_file" Toml.Value.path?
  let ignorePatterns ← t.optional "ignore_patterns" Toml.Value.strings?
  let maxReexportDepth ← t.optional "max_reexport_depth" Toml.Value.word?
  let concurrency ← t.optional "concurrency" Toml.Value.word?
  let timeout ← t.optional "timeout_secs" Toml.Value.word?
  let includeDev ← t.optional "include_dev_deps" Toml.Value.boolean?
  let includePeer ← t.optional "include_peer_deps" Toml.Value.boolean?
  let includeOptional ← t.optional "include_optional_deps" Toml.Value.boolean?
  let outputFormat ← t.optional "output_format" fun v => v.choice?.bind OutputFormat.ofLabel?
  let outputFile ← t.optional "output_file" Toml.Value.path?
  let quiet ← t.optional "quiet" Toml.Value.boolean?
  let verbose ← t.optional "verbose" Toml.Value.boolean?
  let useColours ← t.optional "use_colors" Toml.Value.boolean?
  let showProgress ← t.optional "show_progress" Toml.Value.boolean?
  return { sourceDir, componentsFile, ignorePatterns, maxReexportDepth, concurrency, timeout,
           includeDev, includePeer, includeOptional, outputFormat, outputFile, quiet, verbose,
           useColours, showProgress }

/-- Reads the text of a settings file. -/
def read (file : Path) (text : String) : Except Error Layer :=
  match (Table.read? text).bind ofTable? with
  | none => .error (.configParse file)
  | some l => (l.check file).map fun () => l

/-- Reads a settings file. -/
def load (d : Disk) (file : Path) : Except Error Layer :=
  if d.isFile file then
    match d.readText file with
    | .ok text => read file text
    | .error fault => .error (.configRead file fault.message)
  else .error (.configNotFound file)

end Layer

/-- A source by its name and priority. -/
structure SourceLabel where
  name : String
  priority : Nat
deriving DecidableEq, Repr, Inhabited

/-- The label of a settings file. -/
def SourceLabel.file (path : Path) : SourceLabel :=
  ⟨"config file (" ++ path.text ++ ")", 20⟩

/-- The label of the command line. -/
def SourceLabel.commandLine : SourceLabel :=
  ⟨"command-line arguments", 30⟩

/-! ### Environment -/

/-- The values of environment variables. -/
structure Environment where
  values : List (String × String)
deriving Repr, Inhabited

namespace Environment

/-- The start of the names of the variables that count. -/
def usualPrefix : String := "REACHABILITY"

/-- The value of a variable. -/
def get? (e : Environment) (name : String) : Option String :=
  (e.values.find? fun v => v.1 == name).map Prod.snd

/-- The keys of the variables that count. -/
def keys : List String :=
  ["SOURCE_DIR", "COMPONENTS", "IGNORE", "MAX_DEPTH", "CONCURRENCY", "TIMEOUT", "OUTPUT_FORMAT"]

/-- The name of the variable of a key. -/
def variableName (start key : String) : String :=
  start ++ "_" ++ key

/-- Some variable that counts is set. -/
def isAvailable (e : Environment) (start : String) : Bool :=
  keys.any fun key => (e.get? (variableName start key)).isSome

/-- The label of the environment. -/
def label (start : String) : SourceLabel :=
  ⟨start ++ " environment variables", 10⟩

/-- The value of a key, if it is set and can be read. -/
def parsed {α : Type} (e : Environment) (start key : String) (decode : String → Option α) :
    Except Error (Option α) :=
  match e.get? (variableName start key) with
  | none => .ok none
  | some raw =>
    match decode (Text.trim raw) with
    | some a => .ok (some a)
    | none =>
      .error (.config ("Invalid value '" ++ raw ++ "' for " ++ variableName start key))

/-- The parts between commas that are not blank, without the blanks around them. -/
def patterns (raw : String) : List String :=
  ((Text.split ',' raw).map Text.trim).filter fun s => !s.isEmpty

/-- The format of a name in capital or small letters. -/
def format? (name : String) : Option OutputFormat :=
  OutputFormat.ofLabel? (String.ofList (name.toList.map Char.toLower))

/-- The layer of the environment. -/
def layer (e : Environment) (start : String) : Except Error Layer := do
  let text? (key : String) := e.get? (variableName start key)
  let maxReexportDepth ← e.parsed start "MAX_DEPTH" Decimal.word?
  let concurrency ← e.parsed start "CONCURRENCY" Decimal.word?
  let timeout ← e.parsed start "TIMEOUT" Decimal.word?
  let outputFormat ← e.parsed start "OUTPUT_FORMAT" format?
  return { sourceDir := (text? "SOURCE_DIR").map Path.mk
           componentsFile := (text? "COMPONENTS").map Path.mk
           ignorePatterns := (text? "IGNORE").map patterns
           maxReexportDepth, concurrency, timeout, outputFormat }

end Environment

/-! ### Ignore files -/

namespace IgnoreFile

/-- The name of the file. -/
def fileName : String := ".reachabilityignore"

/-- The patterns of a text. -/
def patterns (text : String) : List String :=
  ((Text.lines text).map Text.trim).filter fun line =>
    !line.isEmpty && line.toList.head? != some '#'

/-- The patterns for a source directory. -/
def load (d : Disk) (dir : Path) : Except Error (List String) :=
  let file := dir.join ⟨fileName⟩
  if d.isFile file then
    match d.readText file with
    | .ok text => .ok (patterns text)
    | .error fault => .error (.configRead file fault.message)
  else .ok []

end IgnoreFile
end DependencyUse
