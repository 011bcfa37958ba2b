/-
# Runs with a deadline

Some work is done on each of a list of items, with a report after each.  No item is
started after the deadline, and the run is complete if none was left out for that.

| deadline | items that are started |
| --- | --- |
| none, or not reached | all |
| passed before the start | none |

The clock counts its seconds in 63 bits, so there is a last millisecond that it can show.
-/

import DependencyUse.Error

namespace DependencyUse

/-- When to stop starting work. -/
inductive Deadline where
  | none
  | far
  | past
deriving DecidableEq, Repr, Inhabited

namespace Deadline

/-- The deadline of a timeout in milliseconds. -/
def ofTimeout : Option Nat → Deadline
  | Option.none => .none
  | some 0 => .past
  | some _ => .far

/-- No more work is started. -/
def isPast : Deadline → Bool
  | .past => true
  | _ => false

/-- The milliseconds that the clock can show are those below. -/
def clockEnd : Nat := Nat.pow 2 63 * 1000

/-- A timeout that starts when the clock shows `now` ends at a time that the clock can
show. -/
def isShown (now : Nat) (timeout : Option Nat) : Bool :=
  timeout.all fun limit => now + limit < clockEnd

end Deadline

/-- A report on how far a run is. -/
structure Progress where
  current : Nat
  total : Nat
deriving DecidableEq, Repr, Inhabited

namespace Progress

/-- What a report says. -/
def message (p : Progress) : String :=
  "Processing item " ++ toString p.current ++ "/" ++ toString p.total

/-- How much is done, in percent. -/
def percentage (p : Progress) : Float :=
  if p.total = 0 then 0.0 else p.current.toFloat / p.total.toFloat * 100.0

end Progress

/-- What a run yields. -/
structure BoundedRun (β : Type) where
  /-- the results of the items that were started, in the order of the items -/
  results : List β
  /-- no item was left out -/
  completed : Bool
  /-- the reports, in the order of their numbers -/
  updates : List Progress
deriving Repr, Inhabited

namespace BoundedRun

variable {α β : Type}

/-- The number of workers for a wanted number: at least one. -/
def workers (concurrency : Nat) : Nat :=
  max concurrency 1

/-- A pool for a wanted number of workers, with the number that it has; `fault?` is what the
system says if it cannot start them. -/
def pool (concurrency : Nat) (fault? : Option String) : Except Error Nat :=
  match fault? with
  | none => .ok (workers concurrency)
  | some fault =>
    .error (.duringWork ("failed to build a pool of " ++ toString concurrency ++ " threads") fault)

/-- A run in which nothing was due yet. -/
def fresh : BoundedRun β where
  results := []
  completed := true
  updates := []

/-- The next of `total` items is due.  After the deadline it is left out, and the run is not
complete any more; else it is worked on and reported. -/
def step (total : Nat) (work : α → β) (late : Bool) (r : BoundedRun β) (item : α) : BoundedRun β :=
  if late then { r with completed := false }
  else
    { r with
      results := r.results ++ [work item]
      updates := r.updates ++ [⟨r.updates.length + 1, total⟩] }

/-- Does some work on each item until the deadline. -/
def run (deadline : Deadline) (work : α → β) (items : List α) : BoundedRun β :=
  items.foldl (step items.length work deadline.isPast) fresh

end BoundedRun
end DependencyUse
