/-
# Warnings

A warning tells where an analysis may be wrong or incomplete.

| code | severity | cause |
| --- | --- | --- |
| dynamic import | warning | a module name is computed, or `import()` binds nothing |
| dynamic code | warning | code is made at run time |
| namespace import | warning | a module is used as a whole |
| star import | warning | a name comes through `export *` |
| barrel file | info | a name comes through re-exports |
| circular re-export | warning | re-exports lead back to where they came from |
| maximal depth | warning | a chain of re-exports is too long |
| side-effect import | info | a module is imported for its effects |
| partial analysis | warning | not every file was looked at |
| skipped files | info | a file could not be read |

Two warnings are the same if they have the same code and the same location.
-/

import DependencyUse.Location
import DependencyUse.Ordered

namespace DependencyUse

/-- How much a warning matters. -/
inductive WarningSeverity where
  | info
  | warning
deriving DecidableEq, Repr, Inhabited

namespace WarningSeverity

/-- The name in reports. -/
def label : WarningSeverity → String
  | .info => "info"
  | .warning => "warning"

/-- The severity of a name. -/
def ofLabel? (label : String) : Option WarningSeverity :=
  [WarningSeverity.info, .warning].find? fun s => s.label == label

end WarningSeverity

/-- What a warning is about. -/
inductive WarningCode where
  | dynamicImport
  | dynamicCode
  | namespaceImport
  | starImport
  | barrelFile
  | circularReexport
  | maxDepthReached
  | sideEffectImport
  | partialAnalysis
  | skippedFiles
deriving DecidableEq, Repr, Inhabited

namespace WarningCode

/-- All codes, in order. -/
def all : List WarningCode :=
  [.dynamicImport, .dynamicCode, .namespaceImport, .starImport, .barrelFile, .circularReexport,
    .maxDepthReached, .sideEffectImport, .partialAnalysis, .skippedFiles]

/-- The name in reports. -/
def label : WarningCode → String
  | .dynamicImport => "dynamic_import"
  | .dynamicCode => "dynamic_code"
  | .namespaceImport => "namespace_import"
  | .starImport => "star_import"
  | .barrelFile => "barrel_file"
  | .circularReexport => "circular_reexport"
  | .maxDepthReached => "max_depth_reached"
  | .sideEffectImport => "side_effect_import"
  | .partialAnalysis => "partial_analysis"
  | .skippedFiles => "skipped_files"

/-- The code of a name. -/
def ofLabel? (label : String) : Option WarningCode :=
  all.find? fun code => code.label == label

/-- The severity of a warning with this code. -/
def severity : WarningCode → WarningSeverity
  | .barrelFile | .sideEffectImport | .skippedFiles => .info
  | _ => .warning

end WarningCode

/-- A limit of the analysis. -/
structure Warning where
  code : WarningCode
  message : String
  location : Option Location
  severity : WarningSeverity
deriving DecidableEq, Repr, Inhabited

namespace Warning

/-- A warning about no place in particular. -/
def new (code : WarningCode) (message : String) : Warning :=
  { code, message, location := none, severity := code.severity }

/-- A warning about a place. -/
def at_ (code : WarningCode) (message : String) (location : Location) : Warning :=
  { code, message, location := some location, severity := code.severity }

/-- The same location, or none for both. -/
def sameLocation : Option Location → Option Location → Bool
  | some a, some b => a.same b
  | none, none => true
  | _, _ => false

/-- The same code and the same location. -/
def same (a b : Warning) : Bool :=
  a.code == b.code && sameLocation a.location b.location

/-- The first warning of each code and location. -/
def distinct (ws : List Warning) : List Warning :=
  distinctBy same ws

end Warning
end DependencyUse
