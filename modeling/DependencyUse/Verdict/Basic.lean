/-
# Verdicts

| status | meaning |
| --- | --- |
| reachable | the component is used |
| imported | it is imported, and no use was seen |
| indirect | it is only reached through re-exports, and no use was seen |
| not reachable | nothing imports it |
| unknown | too little was looked at to say |
-/

import DependencyUse.Component
import DependencyUse.Import.Basic
import DependencyUse.Warning

namespace DependencyUse

/-- Whether a component is used. -/
inductive Status where
  | reachable
  | imported
  | indirect
  | notReachable
  | unknown
deriving DecidableEq, Repr, Inhabited

namespace Status

/-- All statuses, in order. -/
def all : List Status := [.reachable, .imported, .indirect, .notReachable, .unknown]

/-- The name in reports. -/
def label : Status → String
  | .reachable => "reachable"
  | .imported => "imported"
  | .indirect => "indirect"
  | .notReachable => "not_reachable"
  | .unknown => "unknown"

/-- The status of a name. -/
def ofLabel? (label : String) : Option Status :=
  all.find? fun s => s.label == label

end Status

/-- How sure a verdict is. -/
inductive Confidence where
  | low
  | medium
  | high
deriving DecidableEq, Repr, Inhabited

namespace Confidence

/-- The name in reports. -/
def label : Confidence → String
  | .low => "low"
  | .medium => "medium"
  | .high => "high"

/-- The confidence of a name. -/
def ofLabel? (label : String) : Option Confidence :=
  [Confidence.low, .medium, .high].find? fun c => c.label == label

end Confidence

/-- How a component is used. -/
structure Usage where
  importStyles : List ImportKind := []
  usedMembers : List String := []
  referencedMembers : List String := []
  vulnerableFunctionsCalled : List String := []
  locations : List Location := []
deriving DecidableEq, Repr, Inhabited

/-- The verdict on a component. -/
structure ComponentResult where
  component : Component
  status : Status
  confidence : Confidence
  usage : Usage
  warnings : List Warning
  notes : List String
deriving DecidableEq, Repr, Inhabited

namespace ComponentResult

/-- How many warnings have a code. -/
def warningCount (r : ComponentResult) (code : WarningCode) : Nat :=
  (r.warnings.filter fun w => w.code == code).length

/-- Some warning has a code. -/
def hasWarning (r : ComponentResult) (code : WarningCode) : Bool :=
  r.warnings.any fun w => w.code == code

/-- A function that a vulnerability affects is called. -/
def callsVulnerable (r : ComponentResult) : Bool :=
  !r.usage.vulnerableFunctionsCalled.isEmpty

end ComponentResult
end DependencyUse
