/-
# Paths

A path is a text; what it means is the list of its steps.  The steps of a text are
found between its slashes:

| piece | step |
| --- | --- |
| a slash at the very start | `root` |
| nothing, or `.` after the start | none |
| `.` at the very start | `here` |
| `..` | `up` |
| anything else | `name` |

Two paths are the same if their steps are the same, and paths are ordered by their
steps one after the other: `root`, `here`, `up`, then names by their characters.
`a//b`, `a/./b` and `a/b/` are the same path, and `a/x` comes before `a.b/x`.

Normalising takes the steps one by one: `here` is dropped, `up` takes back the last
step that is not the root, and where there is none it stays.
-/

namespace DependencyUse

/-- A path as it is written. -/
structure Path where
  text : String
deriving DecidableEq, Repr, Inhabited

namespace Path

/-- One step of a path. -/
inductive Step where
  | root
  | here
  | up
  | name (text : String)
deriving DecidableEq, Repr, Inhabited

/-- How a step is written. -/
def Step.text : Step → String
  | .root => "/"
  | .here => "."
  | .up => ".."
  | .name text => text

/-- The order of steps. -/
def Step.cmp : Step → Step → Ordering
  | .root, .root => .eq
  | .root, _ => .lt
  | _, .root => .gt
  | .here, .here => .eq
  | .here, _ => .lt
  | _, .here => .gt
  | .up, .up => .eq
  | .up, _ => .lt
  | _, .up => .gt
  | .name a, .name b => compare a b

/-- A step and the stretch of characters that it is written in. -/
structure Span where
  step : Step
  start : Nat
  stop : Nat
deriving DecidableEq, Repr, Inhabited

/-- The step that the piece of characters starting at `start` stands for. -/
def pieceSpan (start : Nat) (piece : List Char) : Option Span :=
  if piece = [] then none
  else if piece = ['.'] then
    if start = 0 then some ⟨.here, 0, 1⟩ else none
  else if piece = ['.', '.'] then some ⟨.up, start, start + 2⟩
  else some ⟨.name (String.ofList piece), start, start + piece.length⟩

/-- The steps of the pieces between the slashes; `piece` is what was read of the piece
that starts at `start`, last character first. -/
def spansFrom (start : Nat) (piece : List Char) : List Char → List Span
  | [] => (pieceSpan start piece.reverse).toList
  | c :: cs =>
    if c = '/' then
      (pieceSpan start piece.reverse).toList ++ spansFrom (start + piece.length + 1) [] cs
    else spansFrom start (c :: piece) cs

/-- The steps of a path with where they stand. -/
def spans (p : Path) : List Span :=
  match p.text.toList with
  | '/' :: cs => ⟨.root, 0, 1⟩ :: spansFrom 1 [] cs
  | cs => spansFrom 0 [] cs

/-- The steps of a path. -/
def steps (p : Path) : List Step :=
  p.spans.map Span.step

/-- The stretch of the text from the first to the last of some of its steps. -/
def stretch (p : Path) (part : List Span) : Path :=
  match part.head?, part.getLast? with
  | some first, some last =>
    ⟨String.ofList ((p.text.toList.drop first.start).take (last.stop - first.start))⟩
  | _, _ => ⟨""⟩

/-- Writes steps: a slash for the root, and one between any two others. -/
def ofSteps : List Step → Path
  | .root :: rest => ⟨"/" ++ "/".intercalate (rest.map Step.text)⟩
  | steps => ⟨"/".intercalate (steps.map Step.text)⟩

/-- The same steps. -/
def same (p q : Path) : Bool :=
  p.steps == q.steps

/-- The order of lists of steps. -/
def cmpSteps : List Step → List Step → Ordering
  | [], [] => .eq
  | [], _ :: _ => .lt
  | _ :: _, [] => .gt
  | a :: as, b :: bs => (a.cmp b).then (cmpSteps as bs)

/-- The order of paths. -/
def cmp (p q : Path) : Ordering :=
  cmpSteps p.steps q.steps

/-- The path starts at the root. -/
def isAbsolute (p : Path) : Bool :=
  p.text.toList.head? == some '/'

/-- `q` seen from `p`: an absolute `q` stays as it is. -/
def join (p q : Path) : Path :=
  if q.isAbsolute then q
  else if p.text.isEmpty || p.text.toList.getLast? == some '/' then ⟨p.text ++ q.text⟩
  else ⟨p.text ++ "/" ++ q.text⟩

/-- The path without its last step; the root and the empty path have none. -/
def parent? (p : Path) : Option Path :=
  match p.spans.getLast? with
  | none => none
  | some last => if last.step = .root then none else some (p.stretch p.spans.dropLast)

/-- The name at the end of the path. -/
def fileName? (p : Path) : Option String :=
  match p.spans.getLast? with
  | some ⟨.name text, _, _⟩ => some text
  | _ => none

/-- A file name cut at its last dot, if there is one that is not its first character. -/
def splitName (name : List Char) : List Char × Option (List Char) :=
  let after := (name.reverse.takeWhile (· ≠ '.')).reverse
  let before := name.take (name.length - after.length - 1)
  if name.contains '.' && !before.isEmpty then (before, some after) else (name, none)

/-- What follows the last dot of the file name. -/
def extension? (p : Path) : Option String :=
  p.fileName?.bind fun name => (splitName name.toList).2.map String.ofList

/-- The path with another extension. -/
def withExtension (p : Path) (extension : String) : Path :=
  match p.spans.getLast? with
  | some ⟨.name text, start, _⟩ =>
    ⟨String.ofList (p.text.toList.take start ++ (splitName text.toList).1) ++ "." ++ extension⟩
  | _ => p

/-- The rest of `spans` after `steps`, if they start with them. -/
def spansAfter? : List Step → List Span → Option (List Span)
  | [], spans => some spans
  | _ :: _, [] => none
  | s :: steps, x :: spans => if s = x.step then spansAfter? steps spans else none

/-- What follows `base` in `p`, if `p` starts with the steps of `base`. -/
def relativeTo? (p base : Path) : Option Path :=
  (spansAfter? base.steps p.spans).map p.stretch

/-- `p` as it is seen from `base`, or `p` itself if it lies elsewhere. -/
def displayedFrom (p base : Path) : Path :=
  (p.relativeTo? base).getD p

/-- Takes one more step from a place. -/
def advance (done : List Step) : Step → List Step
  | .here => done
  | .up => if done = [] ∨ done = [.root] then done ++ [.up] else done.dropLast
  | step => done ++ [step]

/-- The steps left after taking back what `up` takes back. -/
def reduce (steps : List Step) : List Step :=
  steps.foldl advance []

/-- The path written without `here`, and without `up` after a step it can take back. -/
def normalize (p : Path) : Path :=
  ofSteps (reduce p.steps)

end Path
end DependencyUse
