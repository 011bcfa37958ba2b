/-
# The command

With `--init` the command writes a settings file to start from, unless something is
there already.  Otherwise it

1. checks that the directory and the settings file that are named are there,
2. loads the settings,
3. finds the components and judges them,
4. writes the report, to the output file if one is set.

A report has colours only if it goes to the terminal, colours are not switched off and
the variable `NO_COLOR` is not set.  An error is told on the error stream, with a hint
if there is one.

Each step finds the disk as the steps before it left it, also if they fail.
-/

import DependencyUse.Command.Arguments
import DependencyUse.Settings.Components
import DependencyUse.Settings.Load
import DependencyUse.Settings.Template

namespace DependencyUse
namespace Command

/-- What a run that succeeds does: the text that it prints, and the file that it
writes. -/
structure Effect where
  printed : String := ""
  written : Option (Path × String) := none
deriving DecidableEq, Repr, Inhabited

/-- Work on a disk.  If it fails, what it wrote until then stays on the disk. -/
abbrev Work := EStateM Failure Disk

/-- Asks something of the disk. -/
def consult {α : Type} (question : Disk → Except Failure α) : Work α := fun d =>
  match question d with
  | .ok answer => .ok answer d
  | .error failure => .error failure d

/-- Writes a text to a file; `error` is the error if that is not possible. -/
def write (file : Path) (text : String) (error : DiskFault → Error) : Work Unit := fun d =>
  match d.writeText file text with
  | .ok after => .ok () after
  | .error fault => .error (.error (error fault)) d

/-- What a run shows and leaves behind. -/
structure Outcome where
  exitCode : Nat
  stdout : String
  stderr : String
  /-- the file that is written, and its text -/
  written : Option (Path × String) := none
  disk : Disk
deriving Inhabited

/-- Checks that what the arguments name is there. -/
def checkNamed (d : Disk) (a : Arguments) : Except Error Unit := do
  a.path.toList.forM fun path => demand (d.isDir path) (.invalidPath path)
  a.config.toList.forM fun file => demand (d.exists? file) (.configNotFound file)

/-- The settings of a run. -/
def settings (d : Disk) (e : Environment) (a : Arguments) : Except Error Settings :=
  Settings.load d e Environment.usualPrefix a.config (!a.noIgnoreFile) a.layer

/-- The report has colours. -/
def hasColours (e : Environment) (s : Settings) : Bool :=
  s.useColours && s.outputFile.isNone && (e.get? "NO_COLOR").isNone

/-- The report on some verdicts. -/
def report (e : Environment) (s : Settings) (results : List ComponentResult) : String :=
  Report.render s.outputFormat (hasColours e s) s.verbose s.quiet results

/-- The verdicts that the settings lead to, if the clock shows `now` milliseconds. -/
def judge (now : Nat) (d : Disk) (s : Settings) : Except Failure (List ComponentResult) := do
  let components ← (s.components d).mapError .error
  let (results, _) ← Analysis.run now d s.options s.sourceDir components
  return results

/-- Brings a report to where it goes. -/
def deliver (s : Settings) (text : String) : Work Effect := do
  match s.outputFile with
  | none => return { printed := text }
  | some file =>
    write file text fun fault => .outputWrite file fault.message
    return { written := some (file, text) }

/-- Judges the dependencies of a project. -/
def analyse (now : Nat) (e : Environment) (a : Arguments) : Work Effect := do
  consult fun d => (checkNamed d a).mapError .error
  let s ← consult fun d => (settings d e a).mapError .error
  let results ← consult fun d => judge now d s
  deliver s (report e s results)

/-- What is said when there is a settings file already. -/
def presentLines (file : Path) : List String :=
  ["Configuration file already exists at: " ++ file.text,
    "To overwrite it, delete the file first and run this command again."]

/-- What is said about a new settings file. -/
def createdLines (file : Path) : List String :=
  ["Created default configuration file at: " ++ file.text,
    "",
    "Available options:",
    "  - source_dir: Directory to analyze",
    "  - components_file: JSON file with the components to classify",
    "  - ignore_patterns: Glob patterns for files to skip",
    "  - max_reexport_depth: Barrel files followed per import",
    "  - concurrency: Files parsed in parallel",
    "  - output_format: Output format (text, json)"]

/-- Writes a settings file to start from. -/
def start : Work Effect := do
  let file : Path := ⟨Settings.fileName⟩
  if ← consult fun d => .ok (d.exists? file) then
    return { printed := Report.unlines (presentLines file) }
  write file Settings.template fun fault => .fileAccess fault.message
  return { printed := Report.unlines (createdLines file)
           written := some (file, Settings.template) }

/-- Does what the arguments say, if the clock shows `now` milliseconds. -/
def execute (now : Nat) (e : Environment) (a : Arguments) : Work Effect :=
  if a.init then start else analyse now e a

/-- What is told about an error. -/
def complaint (err : Error) : String :=
  Report.unlines ((err.severity.text ++ ": " ++ err.userMessage)
    :: (err.suggestion?.map ("hint: " ++ ·)).toList)

/-- Runs the command; nothing comes out of a run that is broken off. -/
def run (now : Nat) (d : Disk) (e : Environment) (a : Arguments) : Option Outcome :=
  match execute now e a d with
  | .ok effect after =>
    some { exitCode := 0, stdout := effect.printed, stderr := "", written := effect.written,
           disk := after }
  | .error (.error err) after =>
    some { exitCode := err.exitCode, stdout := "", stderr := complaint err, disk := after }
  | .error .brokenOff _ => none

end Command
end DependencyUse
