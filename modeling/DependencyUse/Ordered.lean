/-
# Sorted lists and first occurrences

Two ways to keep of several equal things the first one:

| function | order of the result |
| --- | --- |
| `distinctBy same` | as they come |
| `sortUnique cmp` | by `cmp` |

The things are compared by a function and not by equality, because paths that are
written differently can be the same path.

Things in order are looked up by halving (`searchBy`): the stretch in which the last thing
that is not too great must be is cut at its middle until one thing is left.
-/

namespace DependencyUse

variable {α : Type}

/-- The first one of any that are the same. -/
def distinctBy (same : α → α → Bool) : List α → List α
  | [] => []
  | x :: xs => x :: (distinctBy same xs).filter fun y => !same x y

/-- Puts a thing at its place in a sorted list, unless an equal one is there. -/
def placeBy (cmp : α → α → Ordering) (x : α) : List α → List α
  | [] => [x]
  | y :: ys =>
    match cmp x y with
    | .lt => x :: y :: ys
    | .eq => y :: ys
    | .gt => y :: placeBy cmp x ys

/-- The things in order, the first one of any that are equal. -/
def sortUnique (cmp : α → α → Ordering) (xs : List α) : List α :=
  xs.foldl (fun done x => placeBy cmp x done) []

/-- The place of the last thing that is not too great, in the stretch of `size` things from
`base` on; `cmp` says how a thing compares with the one that is looked for. -/
def lastNotAbove (cmp : α → Ordering) (xs : Array α) (base size : Nat)
    (h : base + size ≤ xs.size) : Nat :=
  if hsize : size ≤ 1 then base
  else
    let half := size / 2
    have : base + half < xs.size := by omega
    if cmp xs[base + half] = .gt then lastNotAbove cmp xs base (size - half) (by omega)
    else lastNotAbove cmp xs (base + half) (size - half) (by omega)
termination_by size

/-- The thing that is looked for, in an array that is in order. -/
def searchBy (cmp : α → Ordering) (xs : Array α) : Option α :=
  (xs[lastNotAbove cmp xs 0 xs.size (by omega)]?).filter fun x => cmp x == .eq

end DependencyUse
