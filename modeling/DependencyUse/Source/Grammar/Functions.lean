/-
# Functions and classes

A function is its parameters, its result type and its body; a class is what it
extends and its members.  Nothing else of them matters to an analysis of uses, so
both are read into their parts.

| where | `await` | `yield` | `return` |
| --- | --- | --- | --- |
| body of a function | if `async` | if a generator | yes |
| initialiser of a field | no | no | – |
| static block | yes | no | no |

A function without a body is a signature and needs types to be known.
-/

import DependencyUse.Source.Grammar.Types

namespace DependencyUse
namespace Source
namespace Grammar

open Reader

/-- Statements in braces. -/
def block (self : Rules) : Reader (List Part) := do
  expectSign "\x7b"
  let items ← many "\x7d" (self.statement false)
  expectSign "\x7d"
  return items.flatMap Item.parts

/-- The context of a function's parameters and body. -/
def functionContext (async generator : Bool) (c : Context) : Context :=
  { c with await := async, yield := generator, allowReturn := true, allowIn := true,
           decorator := false }

/-- A function from its type parameters on. -/
structure FunctionTail where
  parameters : Parameters
  parts : List Part
  hasBody : Bool

/-- Reads type parameters, parameters, result type and body. -/
def functionTail (self : Rules) (async generator : Bool) : Reader FunctionTail :=
  inContext (functionContext async generator) do
    let generics ← typeParameters self
    let ps ← parameters self
    let result ← resultAnnotation self
    let head := generics ++ ps.parts ++ result
    if ← atSign "\x7b" then
      let body ← block self
      return ⟨ps, head ++ body, true⟩
    unless (← read).typescript do reject
    return ⟨ps, head, false⟩

/-- A function expression or declaration from the word `function` on: its name and
parts.  `declares` says that the name belongs to the place around it. -/
def function (self : Rules) (async declares : Bool) : Reader (Option String × List Part × Bool) := do
  expectWord "function"
  let generator ← eatSign "*"
  let name ←
    if ← atName then
      if declares then pure (some (← bindingName))
      else pure (some (← inContext (functionContext async generator) bindingName))
    else pure none
  let tail ← functionTail self async generator
  return (name, tail.parts, tail.hasBody)

/-- A getter takes no parameter and a setter exactly one. -/
def checkAccessor (setter : Bool) (ps : Parameters) : Reader Unit :=
  flagIf (if setter then ps.count != 1 || ps.rest else ps.count != 0)

/-! ## Members -/

/-- The due word is a modifier of the property name after it. -/
def applies (sameLine : Bool) : Reader Bool :=
  peeks do
    advance
    if sameLine && (← onNewLine) then return false
    if ← atPropertyKey then return true
    atSign "*"

/-- Modifiers of a class member that matter to its reading. -/
structure Modifiers where
  async : Bool := false
  fixed : Bool := false

/-- Reads the modifiers of a class member, up to a static block. -/
def memberModifiers : Reader Modifiers :=
  loop ({} : Modifiers) fun m => do
    let typed := (← read).typescript
    let w ← word
    if w == "static" && !m.fixed && (← applies false) then
      keyword
      return .inl { m with fixed := true }
    if w == "async" && (← applies true) then
      keyword
      return .inl { m with async := true }
    if w == "accessor" && (← applies true) then
      keyword
      return .inl m
    let typedWord := ["public", "private", "protected", "abstract", "override", "readonly",
      "declare"].contains w
    if typed && typedWord && (← applies true) then
      advance
      return .inl m
    return .inr m

/-- A method from its parameters on; one without a body is a signature. -/
def method (self : Rules) (async generator : Bool) : Reader FunctionTail := do
  let tail ← functionTail self async generator
  unless tail.hasBody do semicolon
  return tail

/-- An accessor after its word `get` or `set`. -/
def accessorMember (self : Rules) (setter : Bool) : Reader (List Part) := do
  let key ← propertyKey self
  let tail ← method self false false
  checkAccessor setter tail.parameters
  return key.parts ++ tail.parts

/-- One member of a class. -/
def classMember (self : Rules) : Reader (List Part) := do
  if ← eatSign ";" then return []
  let decorated ← decorators self
  let blockDue ← peeks do
    unless ← atWord "static" do return false
    advance
    atSign "\x7b"
  if blockDue then
    keyword
    return ← inContext
      (fun c => { c with await := true, yield := false, allowReturn := false, allowIn := true })
      (block self)
  let m ← memberModifiers
  let typed := (← read).typescript
  if ((← atWord "get") || (← atWord "set")) && !m.async then
    let accessorDue ← peeks do
      advance
      atPropertyKey
    if accessorDue then
      let setter ← atWord "set"
      keyword
      return decorated ++ (← accessorMember self setter)
  if typed && (← atIndexSignature) then
    let s ← indexSignature self
    memberEnd
    return [.types s]
  let generator ← eatSign "*"
  let key ← propertyKey self
  if typed then
    unless ← eatSign "?" do
      if !(← onNewLine) then
        let _ ← eatSign "!"
  if m.async || generator || (← atSign "(") || (← atSign "<") then
    let tail ← method self m.async generator
    return decorated ++ key.parts ++ tail.parts
  let annotation ← typeAnnotation self
  let init ← inContext (fun c => { c with await := false, yield := false }) (initialiser self)
  semicolon
  return decorated ++ key.parts ++ annotation ++ init

/-- The heritage of a class: `extends` and `implements`. -/
def heritage (self : Rules) : Reader (List Part) := do
  let base ← if ← eatWord "extends" then
      let e ← self.leftHand
      let args ← if (← read).typescript && (← atOpenAngle) then typeArguments self else pure []
      pure [e.part, .types args]
    else pure []
  let contracts ← if (← read).typescript && (← atWord "implements") then
      advance
      let ts ← sepBy1 "," do
        qualifiedName
        sameLineTypeArguments self
      pure [.types ts.flatten]
    else pure []
  return base ++ contracts

/-- A class from the word `class` on: its name and parts. -/
def classTail (self : Rules) : Reader (Option String × List Part) := do
  expectWord "class"
  let named := (← atName) && !(← atWord "implements")
  let name ← if named then pure (some (← bindingName)) else pure none
  let generics ← typeParameters self
  let base ← heritage self
  expectSign "\x7b"
  let members ← many "\x7d" (classMember self)
  expectSign "\x7d"
  return (name, generics ++ base ++ members.flatten)

end Grammar
end Source
end DependencyUse
