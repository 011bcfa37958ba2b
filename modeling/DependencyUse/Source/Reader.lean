/-
# Reading a module

The rules of the grammar are tied together by depth: a reader of depth `n + 1` uses
readers of depth `n` for what stands inside.  Every goal inside another consumes a
token before it meets itself again after a bounded number of steps, so a depth
proportional to the length of the text is enough for all of it.

| extension | typed | markup | script |
| --- | --- | --- | --- |
| `js`, `mjs` | no | no | no |
| `cjs` | no | no | yes |
| `jsx` | no | yes | no |
| `ts`, `mts` | yes | no | no |
| `cts` | yes | no | yes |
| `tsx` | yes | yes | no |

A typed file with `.d.` in its name only describes; nothing in it is implemented.
-/

import DependencyUse.Source.Grammar.Statements

namespace DependencyUse
namespace Source

open Reader

/-- The language of a file. -/
structure Language where
  typescript : Bool
  markup : Bool
  script : Bool
  /-- the file only describes what is implemented elsewhere -/
  declarations : Bool
deriving DecidableEq, Repr, Inhabited

/-- The language that a file extension stands for. -/
def Language.ofExtension? : String → Option Language
  | "js" => some ⟨false, false, false, false⟩
  | "mjs" => some ⟨false, false, false, false⟩
  | "cjs" => some ⟨false, false, true, false⟩
  | "jsx" => some ⟨false, true, false, false⟩
  | "ts" => some ⟨true, false, false, false⟩
  | "mts" => some ⟨true, false, false, false⟩
  | "cts" => some ⟨true, false, true, false⟩
  | "tsx" => some ⟨true, true, false, false⟩
  | _ => none

namespace Grammar

/-- The rule of each goal, given readers of all goals. -/
def rule (self : Rules) : Rules
  | .expression => expression self
  | .assignment arrowType => assignment self arrowType
  | .binary level => binary self level
  | .unary => unary self
  | .leftHand => leftHand self
  | .primary => primary self
  | .statement single => statement self single
  | .type => type self
  | .pattern => pattern self
  | .markup => markup self

/-- The readers that nest at most `depth` deep. -/
def rules : Nat → Rules
  | 0 => fun _ => reject
  | depth + 1 => rule (rules depth)

/-- The statements of a module.  The strings that stand alone at its head are
directives and no statements. -/
def items (self : Rules) : Reader (List Item) :=
  loop (([] : List Item), true) fun (rev, head) => do
    if ← atEnd then return .inr rev.reverse
    let startsWithString := match (← token).kind with
      | .string _ => true
      | _ => false
    let item ← self.statement false
    match item with
    | .other [.expr (.string _)] =>
      if head && startsWithString then return .inl (rev, true)
      return .inl (item :: rev, false)
    | _ => return .inl (item :: rev, false)

end Grammar

/-- The context in which the text of a module starts. -/
def Language.context (l : Language) (length : Nat) : Context :=
  { typescript := l.typescript, markup := l.markup, script := l.script, ambient := l.declarations,
    await := !l.script, limit := length + 1 }

/-- The text after a first line that starts with `#!`, and its offset. -/
def skipHashbang : List Char → List Char × Nat
  | '#' :: '!' :: cs =>
    let line := cs.takeWhile fun c => !isLineEnd c
    (cs.drop line.length, 2 + byteLength line)
  | cs => (cs, 0)

/-- Reads the text of a module, or refuses it. -/
def Module.read? (language : Language) (text : String) : Option Module :=
  let chars := text.toList
  let (body, offset) := skipHashbang chars
  let first := next language.script true body offset
  let cursor : Cursor := { token := first.token, here := first.here, rest := first.rest }
  let depth := 16 * (chars.length + 4)
  match Grammar.items (Grammar.rules depth) (language.context chars.length) cursor with
  | some (items, c) => if c.sound && c.pending == 0 then some ⟨items⟩ else none
  | none => none

end Source
end DependencyUse
