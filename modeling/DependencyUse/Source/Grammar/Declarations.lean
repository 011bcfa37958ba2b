/-
# Declarations

Each reader yields what it declares: the names that an `export` in front of it
would export, and its parts.

| declaration | without a value |
| --- | --- |
| `const x`, `using x`, `let [a]` | refused, except where nothing is implemented or in `for … of` |
| `let x`, `var x` | allowed |

A declaration that only describes types is one type position.
-/

import DependencyUse.Source.Grammar.Expressions

namespace DependencyUse
namespace Source
namespace Grammar

open Reader

/-- What a declaration declares, and its parts. -/
structure Declared where
  names : List String
  parts : List Part

/-! ## Variables -/

/-- A declarator that was read. -/
structure Variable where
  names : List String
  parts : List Part
  hasInit : Bool
  isPattern : Bool

/-- `pattern: type = value`. -/
def declaredVariable (self : Rules) : Reader Variable := do
  let start := (← token).start
  let b ← self.pattern
  let isPattern := match b.target with
    | .name _ => false
    | _ => true
  if (← read).typescript then
    if !isPattern && (← atSign "!") && !(← onNewLine) then advance
    let _ ← eatSign "?"
  let annotation ← typeAnnotation self
  let parts := b.parts ++ annotation
  if ← eatSign "=" then
    let init ← self.assignment
    return ⟨b.names, [.declarator start b.target parts init.expr], true, isPattern⟩
  return ⟨b.names, parts, false, isPattern⟩

/-- The word that starts a variable declaration, consumed. -/
def variableWord : Reader String := do
  let w ← word
  keyword
  if w == "await" then
    expectWord "using"
    return "using"
  return w

/-- A variable that lacks the value it needs. -/
def Variable.lacksValue (v : Variable) (w : String) : Bool :=
  !v.hasInit && (v.isPattern || w == "const" || w == "using")

/-- Flags variables that lack a value. -/
def checkValues (w : String) (vs : List Variable) : Reader Unit := do
  flagIf (!(← read).ambient && vs.any (·.lacksValue w))

/-- The declarators after the word of a variable declaration. -/
def declarators (self : Rules) : Reader (List Variable) := sepBy1 "," (declaredVariable self)

/-- A variable statement. -/
def variableStatement (self : Rules) : Reader Declared := do
  let w ← variableWord
  let vs ← inContext (fun c => { c with allowIn := true }) (declarators self)
  checkValues w vs
  semicolon
  return ⟨vs.flatMap (·.names), vs.flatMap (·.parts)⟩

/-- `using name` on one line is due. -/
def usingDue : Reader Bool :=
  peeks do
    if ← atWord "await" then
      advance
      if ← onNewLine then return false
    unless ← atWord "using" do return false
    advance
    return (← atName) && !(← onNewLine)

/-- `let` starts a declaration; where only one statement may stand, only `let [`
reads so. -/
def letDue (single : Bool) : Reader Bool :=
  peeks do
    unless ← atWord "let" do return false
    advance
    if ← atSign "[" then return true
    return !single && ((← atName) || (← atSign "\x7b"))

/-! ## Functions, classes, enums -/

/-- A function declaration, which has a name.  One without a body is a signature and
ends like a statement. -/
def functionDeclaration (self : Rules) (single declared : Bool) : Reader Declared := do
  let async ← eatWord "async"
  let generator ← peeks do
    advance
    atSign "*"
  flagIf (single && (async || generator))
  let (name, parts, hasBody) ← function self async true
  flagIf (name.isNone || (declared && hasBody))
  unless hasBody do semicolon
  return ⟨name.toList, parts⟩

/-- A class declaration, which has a name. -/
def classDeclaration (self : Rules) : Reader Declared := do
  let (name, parts) ← classTail self
  flagIf name.isNone
  return ⟨name.toList, parts⟩

/-- One member of an enum. -/
def enumMember (self : Rules) : Reader (List Part) := do
  let key ← propertyKey self
  if key.hidden then reject
  return key.parts ++ (← initialiser self)

/-- An enum from the word `enum` on. -/
def enumDeclaration (self : Rules) : Reader Declared := do
  expectWord "enum"
  let name ← bindingName
  expectSign "\x7b"
  let members ← commaList "\x7d" (enumMember self)
  expectSign "\x7d"
  return ⟨[name], members.flatten⟩

/-! ## Types and namespaces -/

/-- An interface from the word `interface` on. -/
def interfaceDeclaration (self : Rules) : Reader Declared := do
  expectWord "interface"
  let name ← bindingName
  let generics ← typeParameters self
  let bases ← if ← eatWord "extends" then
      sepBy1 "," do
        qualifiedName
        sameLineTypeArguments self
    else pure []
  let members ← typeMembers self
  return ⟨[name], [.types (generics ++ bases.flatten ++ members)]⟩

/-- `type name = type`. -/
def typeAlias (self : Rules) : Reader Declared := do
  expectWord "type"
  let name ← bindingName
  let generics ← typeParameters self
  expectSign "="
  let t ← self.type
  semicolon
  return ⟨[name], [.types (generics ++ t)]⟩

/-- A namespace, a module declaration, or `global`. -/
def namespaceDeclaration (self : Rules) : Reader Declared := do
  let w ← word
  advance
  if w == "global" then return ⟨[], ← block self⟩
  match (← token).kind with
  | .string _ =>
    advance
    if ← atSign "\x7b" then return ⟨[], ← block self⟩
    semicolon
    return ⟨[], []⟩
  | _ =>
    let names ← sepBy1 "." bindingName
    return ⟨names.take 1, ← block self⟩

/-- The words that start a declaration after its modifiers. -/
def declares (w : String) : Bool :=
  ["var", "let", "const", "function", "class", "enum"].contains w

/-- Whether a typed declaration is due: its words are names elsewhere, and a name on
the same line after them decides. -/
def typedDeclarationDue : Reader Bool :=
  peeks <| loop () fun _ => do
    let w ← word
    if declares w then return .inr true
    if w == "interface" || w == "type" then return .inr (← nameFollowsOnLine)
    if w == "module" || w == "namespace" then
      advance
      if ← onNewLine then return .inr false
      match (← token).kind with
      | .string _ => return .inr true
      | _ => return .inr (← atName)
    if w == "global" then
      advance
      return .inr (← atSign "\x7b")
    if w == "import" then return .inr true
    if ["abstract", "accessor", "async", "declare", "private", "protected", "public",
        "readonly"].contains w then
      advance
      if ← onNewLine then return .inr false
      return .inl ()
    return .inr false

/-- A class is due after its modifiers; nothing else has decorators. -/
def classDue : Reader Bool :=
  peeks <| loop () fun _ => do
    let w ← word
    if ["abstract", "accessor", "declare", "private", "protected", "public", "readonly"].contains w then
      advance
      return .inl ()
    return .inr (w == "class")

/-- A declaration of values or types, from its modifiers on. -/
def typedDeclaration (self : Rules) : Reader Declared := do
  let declared ← loop false fun declared => do
    let w ← word
    let follows ← peeks do
      advance
      return (← atAnyWord) && !(← onNewLine)
    if follows && ["abstract", "accessor", "declare", "private", "protected", "public",
        "readonly"].contains w then
      advance
      return .inl (declared || w == "declare")
    return .inr declared
  inContext (fun c => { c with ambient := c.ambient || declared }) do
    match ← word with
    | "interface" => interfaceDeclaration self
    | "type" => typeAlias self
    | "enum" => enumDeclaration self
    | "class" => classDeclaration self
    | "function" => functionDeclaration self false declared
    | "async" => functionDeclaration self false declared
    | "const" =>
      let enumDue ← peeks do
        advance
        atWord "enum"
      if enumDue then
        advance
        enumDeclaration self
      else variableStatement self
    | "var" => variableStatement self
    | "let" => variableStatement self
    | "module" => namespaceDeclaration self
    | "namespace" => namespaceDeclaration self
    | "global" => namespaceDeclaration self
    | _ => reject

end Grammar
end Source
end DependencyUse
