/-
# Chains of re-exports

A chain leads from a relative import through files that re-export, one after the
other, to a module outside the project.  It knows which names of that module the
importer can ask for:

| `forwarded` | meaning |
| --- | --- |
| a list of pairs | the module's name, and the name the importer asks for |
| empty | every name, unchanged |
-/

import DependencyUse.Import.Basic
import DependencyUse.Warning

namespace DependencyUse

/-- A way from a relative import to a module outside the project. -/
structure ReexportChain where
  /-- the specifier at the end, never relative -/
  specifier : String
  /-- the files passed, in order -/
  files : List Path
  /-- the module's names that come through; empty for all of them -/
  exportedNames : List String
  forwarded : List BoundName
  /-- the number of files passed -/
  depth : Nat
  /-- some re-export on the way was an `export *` -/
  throughStar : Bool
  /-- where the last re-export stands -/
  origin : Location
deriving DecidableEq, Repr, Inhabited

namespace ReexportChain

/-- Every name comes through unchanged. -/
def forwardsEverything (c : ReexportChain) : Bool :=
  c.forwarded.isEmpty

/-- The module's name for a name that the importer asks for. -/
def originName? (c : ReexportChain) (requested : String) : Option String :=
  if c.forwardsEverything then some requested
  else (c.forwarded.find? fun b => b.localName == requested).map BoundName.imported

/-- `a.ts -> b.ts -> lodash`. -/
def describe (c : ReexportChain) : String :=
  " -> ".intercalate (c.files.map Path.text ++ [c.specifier])

end ReexportChain

/-- What following one import yields. -/
structure TraceOutcome where
  chains : List ReexportChain := []
  warnings : List Warning := []
  /-- the files of each cycle in order, one list for each circular warning -/
  cycles : List (List Path) := []
deriving DecidableEq, Repr, Inhabited

namespace TraceOutcome

/-- Neither chain nor warning. -/
def isEmpty (o : TraceOutcome) : Bool :=
  o.chains.isEmpty && o.warnings.isEmpty

/-- One outcome after the other. -/
def append (a b : TraceOutcome) : TraceOutcome :=
  { chains := a.chains ++ b.chains, warnings := a.warnings ++ b.warnings,
    cycles := a.cycles ++ b.cycles }

instance : Append TraceOutcome := ⟨append⟩

/-- The circular warnings with the files of their cycles. -/
def cycleWarnings (o : TraceOutcome) : List (List Path × Warning) :=
  o.cycles.zip (o.warnings.filter fun w => w.code == .circularReexport)

end TraceOutcome
end DependencyUse
