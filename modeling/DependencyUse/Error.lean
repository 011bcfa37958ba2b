/-
# Errors

An error is a cause; what is said about it, and what comes of it, is read off the
cause.

| severity | exit code | causes |
| --- | --- | --- |
| warning | 0 | permission denied, a directory that cannot be walked |
| critical | 2 | anything about the configuration, the components or the output's place |
| error | 1 | all others |

Errors that are not critical are recovered where they arise.  Where a text cannot be
read as JSON or TOML, `<json>` and `<toml>` stand for the account of what is wrong
with it.
-/

import DependencyUse.Disk
import DependencyUse.Glob

namespace DependencyUse

/-- How much an error matters. -/
inductive Severity where
  | warning
  | error
  | critical
deriving DecidableEq, Repr, Inhabited

/-- The name of a severity. -/
def Severity.text : Severity → String
  | .warning => "WARNING"
  | .error => "ERROR"
  | .critical => "CRITICAL"

/-- The exit code that a severity leads to. -/
def Severity.exitCode : Severity → Nat
  | .warning => 0
  | .error => 1
  | .critical => 2

/-- Why a run fails. -/
inductive Error where
  | fileAccess (fault : String)
  | jsonParse (file : Path)
  | config (message : String)
  | permissionDenied (path : Path)
  | invalidPath (path : Path)
  | tomlParse
  | globPattern (fault : Glob.Fault)
  | configNotFound (path : Path)
  | configRead (path : Path) (fault : String)
  | configParse (path : Path)
  | componentsFile (path : Path) (message : String)
  | outputWrite (path : Path) (fault : String)
  | stdoutWrite (fault : String)
  | analysis (message : String)
  | directoryTraversal (path : Path) (message : String)
  | manifestNotFound (path : Path)
  | invalidManifest (path : Path) (message : String)
  | jsonSerialize
  | outputDirectoryNotFound (path : Path)
deriving DecidableEq, Repr, Inhabited

namespace Error

/-- How much the error matters. -/
def severity : Error → Severity
  | .permissionDenied _ | .directoryTraversal .. => .warning
  | .config _ | .configNotFound _ | .configRead .. | .configParse _ | .componentsFile ..
  | .manifestNotFound _ | .stdoutWrite _ | .outputDirectoryNotFound _ => .critical
  | _ => .error

/-- The run must end. -/
def isCritical (e : Error) : Bool :=
  e.severity == .critical

/-- The error is recovered where it arises. -/
def isRecovered (e : Error) : Bool :=
  !e.isCritical

/-- What happened. -/
def message : Error → String
  | .fileAccess fault => "IO error: " ++ fault
  | .jsonParse file => "JSON parsing error in " ++ file.text ++ ": <json>"
  | .config message => "Configuration error: " ++ message
  | .permissionDenied path => "Permission denied accessing " ++ path.text
  | .invalidPath path => "Invalid path: " ++ path.text
  | .tomlParse => "TOML parsing error: <toml>"
  | .globPattern fault => "Glob pattern error: " ++ fault.message
  | .configNotFound path => "Configuration file not found at " ++ path.text
  | .configRead path fault => "Error reading configuration file " ++ path.text ++ ": " ++ fault
  | .configParse path => "Error parsing configuration file " ++ path.text ++ ": <toml>"
  | .componentsFile path message => "Invalid components file " ++ path.text ++ ": " ++ message
  | .outputWrite path fault => "Error writing to output file " ++ path.text ++ ": " ++ fault
  | .stdoutWrite fault => "Error writing to stdout: " ++ fault
  | .analysis message => "Analysis error: " ++ message
  | .directoryTraversal path message =>
    "Directory traversal error for " ++ path.text ++ ": " ++ message
  | .manifestNotFound path => "package.json not found in " ++ path.text
  | .invalidManifest path message =>
    "Invalid package.json structure in " ++ path.text ++ ": " ++ message
  | .jsonSerialize => "JSON serialization error: <json>"
  | .outputDirectoryNotFound path => "Output directory not found: " ++ path.text

/-- What the user is told. -/
def userMessage : Error → String
  | .permissionDenied path =>
    "Cannot access '" ++ path.text ++ "' due to permission denied. Check file permissions."
  | .jsonParse file =>
    "Invalid JSON in '" ++ file.text ++ "': <json>. Please check the file format."
  | .fileAccess fault => "File system error: " ++ fault ++ ". Check disk space and permissions."
  | .invalidPath path =>
    "Invalid path: '" ++ path.text ++ "'. Please provide a valid source directory."
  | .configNotFound path =>
    "Configuration file not found at '" ++ path.text
      ++ "'. Create a config file or use command line options."
  | .manifestNotFound path =>
    "No package.json found in '" ++ path.text
      ++ "'. Pass --components to list the dependencies explicitly."
  | .invalidManifest path message =>
    "Invalid package.json in '" ++ path.text ++ "': " ++ message ++ "."
  | .componentsFile path message =>
    "Could not load components from '" ++ path.text ++ "': " ++ message ++ "."
  | .outputDirectoryNotFound path =>
    "Output directory '" ++ path.text
      ++ "' does not exist. Please create the directory or specify a different output path."
  | e => e.message

/-- What may help. -/
def suggestion? : Error → Option String
  | .invalidPath _ => some "Check that the path exists and is accessible"
  | .configNotFound _ =>
    some "Create a .reachability.toml file with --init or specify a config file with --config"
  | .permissionDenied _ => some "Try running with elevated permissions or check file permissions"
  | .outputDirectoryNotFound _ =>
    some "Create the output directory first or specify a different path"
  | _ => none

/-- The exit code of a run that ends with the error. -/
def exitCode (e : Error) : Nat :=
  e.severity.exitCode

/-- A failure of some work, with what was being done. -/
def duringWork (context fault : String) : Error :=
  .analysis (context ++ ": " ++ fault)

/-- A failure at a path of a directory that is walked. -/
def atPath (path : Path) (denied : Bool) (fault : String) : Error :=
  if denied then .permissionDenied path else .directoryTraversal path fault

/-- What is left of a result: nothing of an error that is recovered. -/
def recover {α : Type} : Except Error α → Except Error (Option α)
  | .ok a => .ok (some a)
  | .error e => if e.isRecovered then .ok none else .error e

end Error
end DependencyUse
