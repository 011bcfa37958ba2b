/-
# Reading with a cursor

A `Reader` consumes tokens from a cursor and may give up.  Two things are kept
apart: giving up (`reject`), after which another reading of the same place may be
tried, and breaking a rule that no other reading would mend (`flag`), after which
reading goes on but the module is refused.

`Context` holds what the place allows (`in` as an operator, `await`, `yield`, …).
Every loop is bounded by the length of the text, `Context.limit`.
-/

import DependencyUse.Source.Lexer
import DependencyUse.Source.Tree

namespace DependencyUse
namespace Source

/-- What may stand at the place that is read. -/
structure Context where
  /-- type annotations and the other typed forms are known -/
  typescript : Bool
  /-- markup elements are known -/
  markup : Bool
  /-- the text is a script, not a module -/
  script : Bool
  /-- nothing here has an implementation -/
  ambient : Bool
  allowIn : Bool := true
  await : Bool := false
  yield : Bool := false
  allowReturn : Bool := true
  /-- `T extends U ? X : Y` may be read as one type -/
  conditionalTypes : Bool := true
  /-- the expression of a decorator, which no `[` continues -/
  decorator : Bool := false
  /-- a bound on the number of tokens -/
  limit : Nat

/-- Where reading stands. -/
structure Cursor where
  token : Token
  /-- the text from the first character of `token` on -/
  here : List Char
  /-- the text after `token` -/
  rest : List Char
  /-- no rule was broken so far -/
  sound : Bool := true
  /-- shorthand initialisers `{ a = 1 }` that are no default of a pattern yet -/
  pending : Nat := 0
  /-- names exported so far -/
  exported : List String := []

/-- A step that reads some tokens. -/
abbrev Reader := ReaderT Context (StateT Cursor Option)

namespace Reader

/-- Gives up. -/
def reject {α : Type} : Reader α := fun _ _ => none

/-- Notes a broken rule. -/
def flag : Reader Unit := modify fun c => { c with sound := false }

/-- Notes a broken rule when `bad`. -/
def flagIf (bad : Bool) : Reader Unit := if bad then flag else pure ()

/-- The token that is due. -/
def token : Reader Token := return (← get).token

/-- Continues reading at `rest`, which stands at byte `offset`. -/
def jump (rest : List Char) (offset : Nat) : Reader Unit := do
  let script := (← read).script
  modify fun c =>
    let l := next script false rest offset
    { c with token := l.token, here := l.here, rest := l.rest }

/-- Moves to the next token. -/
def advance : Reader Unit := do
  let c ← get
  jump c.rest c.token.stop

/-- Replaces the due token by one of kind `kind` that ends before `rest`. -/
def retoken (kind : Kind) (rest : List Char) : Reader Unit :=
  modify fun c =>
    let stop := c.token.start + (byteLength c.here - byteLength rest)
    { c with token := { c.token with kind := kind, stop := stop }, rest := rest }

/-- Runs `p` and goes back to where it started. -/
def lookahead {α : Type} (p : Reader α) : Reader (Option α) := fun ctx c =>
  match p ctx c with
  | some (a, _) => some (some a, c)
  | none => some (none, c)

/-- Runs `p`; if it gives up, goes back to where it started. -/
def attempt {α : Type} (p : Reader α) : Reader (Option α) := fun ctx c =>
  match p ctx c with
  | some (a, c) => some (some a, c)
  | none => some (none, c)

/-- Whether `p`, tried from here, answers `true`. -/
def peeks (p : Reader Bool) : Reader Bool := return (← lookahead p).getD false

/-- The spelling of the due operator or bracket, or `""`. -/
def sign : Reader String := do
  match (← token).kind with
  | .sign s => return s
  | _ => return ""

/-- The due name or keyword, or `""`. -/
def word : Reader String := do
  match (← token).kind with
  | .word w _ => return w
  | _ => return ""

def atSign (s : String) : Reader Bool := return (← token).kind == .sign s

/-- The word `w` is due, spelled with or without escapes. -/
def atWord (w : String) : Reader Bool := return (← word) == w

def atEnd : Reader Bool := return (← token).kind == .eof

/-- Consumes the sign `s` if it is due. -/
def eatSign (s : String) : Reader Bool := do
  if ← atSign s then advance; return true else return false

/-- Consumes a due word as a keyword, which is spelled without escapes. -/
def keyword : Reader Unit := do
  match (← token).kind with
  | .word _ true => flag
  | _ => pure ()
  advance

/-- Consumes the keyword `w` if it is due. -/
def eatWord (w : String) : Reader Bool := do
  if ← atWord w then keyword; return true else return false

def expectSign (s : String) : Reader Unit := do
  unless ← eatSign s do reject

def expectWord (w : String) : Reader Unit := do
  unless ← eatWord w do reject

/-- A line ends before the due token. -/
def onNewLine : Reader Bool := return (← token).newline

/-- Repeats `step` from a state until it answers, at most `fuel` times. -/
def loopFor {σ α : Type} (step : σ → Reader (σ ⊕ α)) : Nat → σ → Reader α
  | 0, _ => reject
  | fuel + 1, s => do
    match ← step s with
    | .inl s => loopFor step fuel s
    | .inr a => return a

/-- Repeats `step` from a state until it answers. -/
def loop {σ α : Type} (start : σ) (step : σ → Reader (σ ⊕ α)) : Reader α := do
  loopFor step (← read).limit start

/-- Items up to the closing sign `close`, which is not consumed. -/
def many {α : Type} (close : String) (item : Reader α) : Reader (List α) :=
  loop [] fun rev => do
    if ← atSign close then return .inr rev.reverse
    return .inl ((← item) :: rev)

/-- Items with commas between them up to the closing sign `close`, which is not
consumed; a comma may follow the last. -/
def commaList {α : Type} (close : String) (item : Reader α) : Reader (List α) :=
  loop [] fun rev => do
    if ← atSign close then return .inr rev.reverse
    let a ← item
    if ← atSign close then return .inr (a :: rev).reverse
    expectSign ","
    return .inl (a :: rev)

/-- One item, and more after each sign `s`. -/
def sepBy1 {α : Type} (s : String) (item : Reader α) : Reader (List α) :=
  loop [] fun rev => do
    let a ← item
    if ← eatSign s then return .inl (a :: rev)
    return .inr (a :: rev).reverse

/-- A statement may end here: at `;`, before `}` or the end, or at a line end. -/
def mayEnd : Reader Bool := do
  let t ← token
  return t.newline || t.kind == .sign ";" || t.kind == .sign "\x7d" || t.kind == .eof

/-- Ends a statement. -/
def semicolon : Reader Unit := do
  if ← mayEnd then
    let _ ← eatSign ";"
  else reject

/-- Runs `p` in a changed context. -/
def inContext {α : Type} (f : Context → Context) (p : Reader α) : Reader α := fun ctx c => p (f ctx) c

/-- Runs `p` where `in` is an operator again and no decorator is read. -/
def nested {α : Type} (p : Reader α) : Reader α :=
  inContext (fun c => { c with allowIn := true, decorator := false }) p

end Reader
end Source
end DependencyUse
