/-
# The shape of the grammar

The grammar is a family of readers, one for each `Goal`.  A rule of the grammar is
an ordinary definition that receives the readers of all goals as `self`; the
recursion is tied once, by depth, where all rules are known.

Reading an expression yields an `Operand`: the tree, and what the expression may
still turn into.  `[a, b.c] = d` is read as an array literal first, and becomes an
assignment only when the `=` is met; the form of the literal says then whether it
can be read as a pattern.

| form | may be assigned to | may be an element of a pattern |
| --- | --- | --- |
| `reference` | yes | yes |
| `literal` | with `=` only | yes |
| `assignment` | no | yes, as an element with a default |
| `logical`, `coalesce`, `plain` | no | no |
-/

import DependencyUse.Source.Cursor
import DependencyUse.Decimal.Shortest

namespace DependencyUse
namespace Source

/-- What an expression may still turn into. -/
inductive Form where
  /-- a name, a member, or a typed wrapper of an expression -/
  | reference
  /-- an array or object literal that can be read as a pattern -/
  | literal
  /-- `target = value` -/
  | assignment
  /-- an operand of `||` or `&&` without parentheses -/
  | logical
  /-- an operand of `??` without parentheses -/
  | coalesce
  | plain
deriving DecidableEq, Repr

/-- An expression that was read. -/
structure Operand where
  expr : Expr
  form : Form := .plain
  /-- shorthand initialisers in it that become defaults if it becomes a pattern -/
  inits : Nat := 0

/-- The operand as a part. -/
def Operand.part (o : Operand) : Part := .expr o.expr

/-- The operand may stand in a pattern as an element. -/
def Operand.isElement (o : Operand) : Bool :=
  o.form == .reference || o.form == .literal || o.form == .assignment

/-- The operand may stand in a pattern after `...`. -/
def Operand.isRest (o : Operand) : Bool := o.form == .reference || o.form == .literal

/-- A binding pattern that was read. -/
structure Binding where
  target : Target
  /-- all names it declares -/
  names : List String
  /-- the expressions and types in it -/
  parts : List Part

/-- What can be read. -/
inductive Goal where
  | expression
  /-- an expression without comma; `arrowType` when an arrow function may have a
  result type here -/
  | assignment (arrowType : Bool)
  /-- operators that bind tighter than `level` -/
  | binary (level : Nat)
  | unary
  | leftHand
  | primary
  /-- a statement; `single` where it is the body of another one -/
  | statement (single : Bool)
  | type
  | pattern
  | markup

/-- What reading a goal yields. -/
abbrev Goal.Out : Goal → Type
  | .expression => Operand
  | .assignment _ => Operand
  | .binary _ => Operand
  | .unary => Operand
  | .leftHand => Operand
  | .primary => Operand
  | .statement _ => Item
  | .type => List Part
  | .pattern => Binding
  | .markup => Expr

/-- Readers of all goals. -/
abbrev Rules := (g : Goal) → Reader g.Out

namespace Rules

def expression (self : Rules) : Reader Operand := self .expression
def assignment (self : Rules) (arrowType : Bool := true) : Reader Operand :=
  self (.assignment arrowType)
def binary (self : Rules) (level : Nat) : Reader Operand := self (.binary level)
def unary (self : Rules) : Reader Operand := self .unary
def leftHand (self : Rules) : Reader Operand := self .leftHand
def primary (self : Rules) : Reader Operand := self .primary
def statement (self : Rules) (single : Bool) : Reader Item := self (.statement single)
def type (self : Rules) : Reader (List Part) := self .type
def pattern (self : Rules) : Reader Binding := self .pattern
def markup (self : Rules) : Reader Expr := self .markup

end Rules

namespace Grammar

open Reader

/-! ## Words -/

/-- Words that are never names. -/
def reservedWords : List String :=
  ["break", "case", "catch", "class", "const", "continue", "debugger", "default", "delete", "do",
   "else", "enum", "export", "extends", "false", "finally", "for", "function", "if", "import", "in",
   "instanceof", "new", "null", "return", "super", "switch", "this", "throw", "true", "try",
   "typeof", "var", "void", "while", "with"]

/-- Words that no exported local may have beside the reserved ones. -/
def strictWords : List String :=
  ["implements", "interface", "let", "package", "private", "protected", "public", "static", "yield"]

/-- A word that may be a name. -/
def isNameWord (w : String) : Bool := w != "" && !reservedWords.contains w

/-- A word that may be a name at this place. -/
def isNameHere (ctx : Context) (w : String) : Bool :=
  isNameWord w && !(w == "await" && ctx.await) && !(w == "yield" && ctx.yield)

/-- A name is due, `await` and `yield` counted as names. -/
def atName : Reader Bool := return isNameWord (← word)

/-- Any word is due. -/
def atAnyWord : Reader Bool := return (← word) != ""

/-- A name that declares something. -/
def bindingName : Reader String := do
  let w ← word
  unless isNameWord w do reject
  let ctx ← read
  flagIf ((w == "await" && ctx.await) || (w == "yield" && ctx.yield))
  advance
  return w

/-- Any word, as a property name. -/
def anyWord : Reader String := do
  let w ← word
  if w == "" then reject
  advance
  return w

/-- A name, word or literal on the same line follows. -/
def wordOrLiteralOnLine : Reader Bool := do
  let t ← token
  if t.newline then return false
  match t.kind with
  | .word _ _ => return true
  | .number _ => return true
  | .bigint _ => return true
  | .string _ => return true
  | _ => return false

/-- A name on the same line follows the due token. -/
def nameFollowsOnLine : Reader Bool :=
  peeks do
    advance
    return isNameWord (← word) && !(← onNewLine)

/-! ## Operands -/

/-- An expression of parts, neither a target nor a logical operand. -/
def compound (parts : List Part) : Operand := ⟨.other parts, .plain, 0⟩

/-- The operand becomes the target of an assignment; `simple` for an assignment
that reads its target. -/
def assignTo (o : Operand) (simple : Bool) : Reader Unit := do
  match o.form with
  | .reference => pure ()
  | .literal =>
    if simple then reject
    modify fun c => { c with pending := c.pending - o.inits }
  | _ => reject

/-! ## Property keys -/

/-- The name of a property. -/
structure Key where
  /-- its text, when it does not depend on a computation -/
  name : Option String
  /-- the computed expression -/
  parts : List Part := []
  /-- it is a plain word, which may stand for itself as a value -/
  plain : Bool := false
  /-- a private name -/
  hidden : Bool := false

/-- The text of a literal that is all of a computed key. -/
def literalKey : Reader (Option String) := do
  let t ← token
  let c ← get
  let regex := match t.kind with
    | .sign "/" => skipRegex c.here
    | .sign "/=" => skipRegex c.here
    | _ => none
  match regex with
  | some rest =>
    let closes ← peeks do
      jump rest (t.start + (byteLength c.here - byteLength rest))
      atSign "]"
    let text := c.here.take (c.here.length - rest.length)
    return if closes then some (String.ofList text) else none
  | none =>
    let closes ← peeks do
      advance
      atSign "]"
    if !closes then return none
    match t.kind with
    | .number n => return some (Decimal.text n.mantissa n.exponent)
    | .bigint n => return some (toString n)
    | .string s => return some s
    | .template cooked true => return cooked
    | .word "null" _ => return some "null"
    | _ => return none

/-- A property name: a word, a literal, a private name, or `[expression]`. -/
def propertyKey (self : Rules) : Reader Key := do
  match (← token).kind with
  | .word w _ => advance; return ⟨some w, [], true, false⟩
  | .string s => advance; return ⟨some s, [], false, false⟩
  | .number n => advance; return ⟨some (Decimal.text n.mantissa n.exponent), [], false, false⟩
  | .bigint n => advance; return ⟨some (toString n), [], false, false⟩
  | .hidden _ => advance; return ⟨none, [], false, true⟩
  | .sign "[" =>
    advance
    let name ← literalKey
    let e ← nested self.assignment
    expectSign "]"
    return ⟨name, [e.part], false, false⟩
  | _ => reject

/-- A property name may start here. -/
def atPropertyKey : Reader Bool := do
  match (← token).kind with
  | .word _ _ => return true
  | .string _ => return true
  | .number _ => return true
  | .bigint _ => return true
  | .hidden _ => return true
  | .sign "[" => return true
  | _ => return false

end Grammar
end Source
end DependencyUse
