/-
# Binding patterns and parameters

A pattern declares names.  `{ key: name }` and `{ name }` bind a name directly to a
property, and only those fields are kept with their key; a nested pattern, a rest
element and an array pattern declare names without one.
-/

import DependencyUse.Source.Grammar.Basic

namespace DependencyUse
namespace Source
namespace Grammar

open Reader

/-- `: type`, if types are known and a colon is due. -/
def typeAnnotation (self : Rules) : Reader (List Part) := do
  if (← read).typescript then
    if ← eatSign ":" then return [.types (← self.type)]
  return []

/-- `= expression`, if an equals sign is due. -/
def initialiser (self : Rules) : Reader (List Part) := do
  if ← eatSign "=" then return [(← nested self.assignment).part]
  return []

/-- A pattern with an optional default. -/
def elementPattern (self : Rules) : Reader Binding := do
  let b ← self.pattern
  let init ← initialiser self
  return { b with parts := b.parts ++ init }

/-- The pattern after `...`, which ends its list. -/
def restPattern (self : Rules) (close : String) : Reader Binding := do
  advance
  let b ← self.pattern
  flagIf (!(← atSign close))
  return b

/-- One field of an object pattern: what it binds directly, its names and parts. -/
def fieldPattern (self : Rules) : Reader (List (String × String) × Binding) := do
  if ← atSign "..." then
    let b ← restPattern self "\x7d"
    match b.target with
    | .name _ => pure ()
    | _ => flag
    return ([], b)
  let w ← word
  let ctx ← read
  let key ← propertyKey self
  if key.hidden then reject
  if ← eatSign ":" then
    let b ← elementPattern self
    let fields := match key.name, b.target with
      | some k, .name id => [(k, id)]
      | _, _ => []
    return (fields, { b with parts := key.parts ++ b.parts })
  if !key.plain || !isNameWord w then reject
  flagIf ((w == "await" && ctx.await) || (w == "yield" && ctx.yield))
  let init ← initialiser self
  return ([(w, w)], ⟨.name w, [w], init⟩)

/-- A binding pattern: a name, `[…]` or `{…}`. -/
def pattern (self : Rules) : Reader Binding := do
  match (← token).kind with
  | .sign "[" =>
    advance
    let items ← loop ([] : List Binding) fun rev => do
      if ← eatSign "]" then return .inr rev.reverse
      if ← eatSign "," then return .inl rev
      let b ← if ← atSign "..." then restPattern self "]" else elementPattern self
      unless ← atSign "]" do expectSign ","
      return .inl (b :: rev)
    return ⟨.other, items.flatMap (·.names), items.flatMap (·.parts)⟩
  | .sign "\x7b" =>
    advance
    let fields ← commaList "\x7d" (fieldPattern self)
    expectSign "\x7d"
    return ⟨.fields (fields.flatMap (·.1)), fields.flatMap (·.2.names), fields.flatMap (·.2.parts)⟩
  | _ =>
    let id ← bindingName
    return ⟨.name id, [id], []⟩

/-! ## Decorators and modifiers -/

/-- The decorators that stand here. -/
def decorators (self : Rules) : Reader (List Part) :=
  loop [] fun parts => do
    if ← eatSign "@" then
      let e ← inContext (fun c => { c with decorator := true }) self.leftHand
      return .inl (parts ++ [e.part])
    return .inr parts

/-- Words that may stand before a member or a parameter. -/
def modifierWords : List String :=
  ["public", "private", "protected", "static", "abstract", "override", "readonly", "declare",
   "accessor", "async", "const", "export", "default", "in", "out"]

/-- The due modifier is followed by what it modifies, on the same line. -/
def modifierApplies : Reader Bool :=
  peeks do
    advance
    if ← onNewLine then return false
    if ← atPropertyKey then return true
    let s ← sign
    return s == "[" || s == "\x7b" || s == "*" || s == "..."

/-! ## Parameters -/

/-- Parameters that were read. -/
structure Parameters where
  count : Nat
  rest : Bool
  parts : List Part

/-- Skips the modifiers of a parameter. -/
def parameterModifiers : Reader Unit :=
  loop () fun _ => do
    let w ← word
    let known := ["public", "private", "protected", "override", "readonly"].contains w
    if known && (← read).typescript && (← modifierApplies) then
      advance
      return .inl ()
    return .inr ()

/-- One parameter and whether it takes the rest of the arguments. -/
def parameter (self : Rules) : Reader (Bool × List Part) := do
  let decorated ← decorators self
  parameterModifiers
  let typed := (← read).typescript
  if ← eatSign "..." then
    let b ← self.pattern
    if typed then let _ ← eatSign "?"
    let annotation ← typeAnnotation self
    let init ← initialiser self
    flagIf (!init.isEmpty)
    flagIf (!(← atSign ")"))
    return (true, decorated ++ b.parts ++ annotation)
  if typed && (← atWord "this") then
    advance
    return (false, decorated ++ (← typeAnnotation self))
  let b ← self.pattern
  if typed then let _ ← eatSign "?"
  let annotation ← typeAnnotation self
  let init ← initialiser self
  return (false, decorated ++ b.parts ++ annotation ++ init)

/-- A parameter list in parentheses. -/
def parameters (self : Rules) : Reader Parameters := do
  let typed := (← read).typescript
  expectSign "("
  let thisFirst := typed && (← atWord "this")
  let ps ← nested (commaList ")" (parameter self))
  expectSign ")"
  let count := if thisFirst then ps.length - 1 else ps.length
  return ⟨count, ps.any (·.1), ps.flatMap (·.2)⟩

end Grammar
end Source
end DependencyUse
