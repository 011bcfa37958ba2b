/-
# Following an import through re-exports

The search goes depth first from the file that a relative import names, along the
re-exports of each file that let some asked-for name through.  It stops

| at | with |
| --- | --- |
| a re-export of an outside module | a chain |
| the importer, or a file on the way already | a circular warning |
| any other file, with as many files on the way as allowed | a depth warning |
| a specifier that names no file | nothing |

One state goes through the whole search.  A file is added to the state when the search
goes into it, and taken out again when all its re-exports were followed.

The search asks two questions, what a file imports and what a specifier names, of a
`View`.  The answers may come from memory or from anywhere else, so a view gives
them in a monad.
-/

import DependencyUse.Reexport.Chain
import DependencyUse.Reexport.Flow

namespace DependencyUse

/-- What a search can ask. -/
structure View (m : Type → Type) where
  /-- the imports of a file -/
  imports : Path → m (List ImportRecord)
  /-- the file that a specifier in a file names -/
  resolve : String → Path → m (Option Path)
  /-- how a file is shown -/
  display : Path → Path

namespace Trace

variable {m : Type → Type} [Monad m]

/-- What remains of a list from the first element equal to `p` on, if there is one. -/
def from? (p : Path) : List Path → Option (List Path)
  | [] => none
  | q :: qs => if q = p then some (q :: qs) else from? p qs

/-- The files of the cycle that is closed by coming to `file`, in order. -/
def cycleMembers (display : Path → Path) (chain : List Path) (file : Path) : List Path :=
  let members := match from? file chain with
    | some members => members
    | none => chain ++ [file]
  sortUnique Path.cmp (members.map display)

/-- The search comes back to a file. -/
def circular (display : Path → Path) (chain : List Path) (via : Location) (file : Path) :
    TraceOutcome where
  warnings := [Warning.at_ .circularReexport
    ("Circular re-export: "
      ++ " -> ".intercalate ((chain ++ [file]).map fun p => (display p).text)) via]
  cycles := [cycleMembers display chain file]

/-- The search has as many files on the way as allowed. -/
def tooDeep (display : Path → Path) (maxDepth : Nat) (via : Location) (file : Path) :
    TraceOutcome where
  warnings := [Warning.at_ .maxDepthReached
    ("Re-export chain longer than " ++ toString maxDepth ++ " files; stopped at "
      ++ (display file).text) via]

/-- The chain that ends with a re-export of an outside module. -/
def chainFor (display : Path → Path) (chain : List Path) (star : Bool) (flows : Flows)
    (r : ImportRecord) : ReexportChain where
  specifier := r.specifier
  files := chain.map display
  exportedNames := sortUnique compare
    ((flows.forwarded.map BoundName.imported).filter fun name => name != BoundName.wholeName)
  forwarded := flows.forwarded
  depth := chain.length
  throughStar := star
  origin := r.location

/-- A record along which the search goes on. -/
def follows (r : ImportRecord) : Bool :=
  r.isReexport && !r.typeOnly

/-- What a search changes as it goes, and puts back when it leaves a file. -/
structure State where
  /-- the files on the way -/
  chain : List Path := []
  /-- the files that close a cycle -/
  visited : List Path
  /-- some re-export on the way is one of everything -/
  throughStar : Bool := false
  /-- what was found so far; this alone is not put back -/
  outcome : TraceOutcome := {}
deriving DecidableEq, Repr, Inhabited

namespace State

/-- Something more was found. -/
def add (s : State) (more : TraceOutcome) : State :=
  { s with outcome := s.outcome ++ more }

/-- The search goes into a file. -/
def enter (s : State) (file : Path) : State :=
  { s with chain := s.chain ++ [file], visited := file :: s.visited }

/-- The search leaves the file that it went into last. -/
def leave (s : State) (file : Path) : State :=
  { s with chain := s.chain.dropLast, visited := s.visited.filter (· ≠ file) }

end State

/-- The search along one re-export of a file; `go` is the search from a file on. -/
def along (view : View m) (file : Path) (flows : Flows)
    (go : Flows → Location → Path → State → m State) (s : State) (r : ImportRecord) : m State :=
  match flows.forward r with
  | none => return s
  | some (next, isStar) => do
    let outerStar := s.throughStar
    let s := { s with throughStar := s.throughStar || isStar }
    let s ←
      if r.isRelative then do
        match ← view.resolve r.specifier file with
        | some target => go next r.location target s
        | none => pure s
      else pure (s.add { chains := [chainFor view.display s.chain s.throughStar next r] })
    return { s with throughStar := outerStar }

/-- The search from one file on.  `room` bounds how far it goes; where it is at least what is
left of the depth, it is never used up. -/
def search (view : View m) (maxDepth : Nat) (room : Nat) (flows : Flows) (via : Location)
    (target : Path) (s : State) : m State :=
  let file := target.normalize
  if file ∈ s.visited then return s.add (circular view.display s.chain via file)
  else if maxDepth ≤ s.chain.length then return s.add (tooDeep view.display maxDepth via file)
  else
    match room with
    | 0 => return s
    | room + 1 => do
      let records ← view.imports file
      let s ← (records.filter follows).foldlM
        (along view file flows (search view maxDepth room)) (s.enter file)
      return s.leave file

/-- Follows an import of a file. -/
def trace (view : View m) (maxDepth : Nat) (r : ImportRecord) (source : Path) : m TraceOutcome :=
  if !r.isRelative || r.typeOnly then return {}
  else do
    match ← view.resolve r.specifier source with
    | none => return {}
    | some target => do
      let s ← search view maxDepth maxDepth (Flows.requestedBy r) r.location target
        { visited := [source.normalize] }
      return s.outcome

end Trace
end DependencyUse
