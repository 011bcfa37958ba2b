/-
# Types

A type is read for where it ends; what is kept of it are the expressions that
stand in it, in source order:

| construct | expression kept |
| --- | --- |
| `{ [key]: T }` | the computed key |
| `import('m', options)` | the options |
| `(a = e) => T` | the default of the parameter |

Precedence from loose to tight: function and constructor types, conditional types,
unions, intersections, prefix operators, postfix brackets.
-/

import DependencyUse.Source.Grammar.Patterns

namespace DependencyUse
namespace Source
namespace Grammar

open Reader

/-- Consumes the `<` before type arguments, also the first half of `<<`. -/
def eatOpenAngle : Reader Bool := do
  match ← sign with
  | "<" => advance; return true
  | "<<" =>
    retoken (.sign "<") ((← get).here.drop 1)
    advance
    return true
  | _ => return false

/-- `<` or `<<` is due. -/
def atOpenAngle : Reader Bool := do
  let s ← sign
  return s == "<" || s == "<<"

/-- The types between angle brackets, of which there is at least one. -/
def typeArguments (self : Rules) : Reader (List Part) := do
  unless ← eatOpenAngle do reject
  let args ← commaList ">" self.type
  expectSign ">"
  flagIf args.isEmpty
  return args.flatten

/-- Skips the modifiers of a type parameter. -/
def typeParameterModifiers : Reader Unit :=
  loop () fun _ => do
    let w ← word
    let applies ← peeks do
      advance
      let v ← word
      return v != "" && v != "extends"
    if (w == "in" || w == "const" || w == "out") && applies then
      advance
      return .inl ()
    return .inr ()

/-- `<T extends U = V, …>`, if types are known and it is due. -/
def typeParameters (self : Rules) : Reader (List Part) := do
  if !(← read).typescript || !(← atSign "<") then return []
  advance
  let ps ← commaList ">" do
    typeParameterModifiers
    let _ ← bindingName
    let bound ← if ← eatWord "extends" then self.type else pure []
    let default ← if ← eatSign "=" then self.type else pure []
    return bound ++ default
  expectSign ">"
  flagIf ps.isEmpty
  return [.types ps.flatten]

/-- A name and the names after its dots. -/
def qualifiedName : Reader Unit := do
  let _ ← anyWord
  loop () fun _ => do
    if ← eatSign "." then
      match (← token).kind with
      | .hidden _ => advance
      | _ =>
        let _ ← anyWord
      return .inl ()
    return .inr ()

/-- Type arguments on the same line, if they are due. -/
def sameLineTypeArguments (self : Rules) : Reader (List Part) := do
  if (← atOpenAngle) && !(← onNewLine) then typeArguments self else return []

/-- A result type: a type, or a statement about a parameter (`x is T`). -/
def resultType (self : Rules) : Reader (List Part) := do
  let states ← peeks do
    unless (← atName) || (← atWord "this") do return false
    advance
    return (← atWord "is") && !(← onNewLine)
  if states then
    advance
    advance
  self.type

/-- `: result type`, if types are known and a colon is due. -/
def resultAnnotation (self : Rules) : Reader (List Part) := do
  if (← read).typescript then
    if ← eatSign ":" then return [.types (← resultType self)]
  return []

/-- The parenthesis that is due can only start the parameters of a function type. -/
def startsFunctionType (self : Rules) : Reader Bool :=
  peeks do
    advance
    if (← atSign ")") || (← atSign "...") then return true
    parameterModifiers
    if (← atName) || (← atWord "this") then advance
    else if (← atSign "[") || (← atSign "\x7b") then
      let _ ← self.pattern
    else return false
    match ← sign with
    | ":" => return true
    | "," => return true
    | "?" => return true
    | "=" => return true
    | ")" => advance; atSign "=>"
    | _ => return false

/-- `<T>(params) => result`. -/
def functionType (self : Rules) : Reader (List Part) := do
  let generics ← typeParameters self
  let ps ← parameters self
  expectSign "=>"
  let result ← inContext (fun c => { c with conditionalTypes := true }) (resultType self)
  return generics ++ ps.parts ++ result

/-- Ends a member of a type literal. -/
def memberEnd : Reader Unit := do
  unless ← eatSign "," do semicolon

/-- An index signature `[key: T]` is due. -/
def atIndexSignature : Reader Bool :=
  peeks do
    unless ← atSign "[" do return false
    advance
    unless ← atName do return false
    advance
    atSign ":"

/-- `[key: T]: U`. -/
def indexSignature (self : Rules) : Reader (List Part) := do
  advance
  let _ ← bindingName
  expectSign ":"
  let key ← self.type
  expectSign "]"
  let value ← typeAnnotation self
  return key ++ value

/-- The call signature `<T>(params): result`. -/
def callSignature (self : Rules) : Reader (List Part) := do
  let generics ← typeParameters self
  let ps ← parameters self
  let result ← resultAnnotation self
  return generics ++ ps.parts ++ result

/-- One member of a type literal. -/
def typeMember (self : Rules) : Reader (List Part) := do
  if (← atSign "(") || (← atSign "<") then
    let s ← callSignature self
    memberEnd
    return s
  let constructs ← peeks do
    unless ← atWord "new" do return false
    advance
    return (← atSign "(") || (← atSign "<")
  if constructs then
    advance
    let s ← callSignature self
    memberEnd
    return s
  loop () fun _ => do
    if ["readonly", "static", "declare", "public", "private", "protected", "abstract", "override",
        "accessor", "async"].contains (← word) && (← modifierApplies) then
      advance
      return .inl ()
    return .inr ()
  if ← atIndexSignature then
    let s ← indexSignature self
    memberEnd
    return s
  if (← atWord "get") || (← atWord "set") then
    let applies ← peeks do
      advance
      atPropertyKey
    if applies then advance
  let key ← propertyKey self
  let _ ← eatSign "?"
  let signature ← if (← atSign "(") || (← atSign "<") then callSignature self else typeAnnotation self
  memberEnd
  return key.parts ++ signature

/-- The members of a type literal or interface, in braces. -/
def typeMembers (self : Rules) : Reader (List Part) := do
  expectSign "\x7b"
  let ms ← many "\x7d" (typeMember self)
  expectSign "\x7d"
  return ms.flatten

/-- A mapped type is due: `{ [K in T]: U }`. -/
def atMappedType : Reader Bool :=
  peeks do
    unless ← eatSign "\x7b" do return false
    if (← atSign "+") || (← atSign "-") then
      advance
      return ← atWord "readonly"
    if ← atWord "readonly" then advance
    unless ← eatSign "[" do return false
    unless ← atName do return false
    advance
    atWord "in"

/-- `+` or `-` before the word or sign of a mapped type's modifier. -/
def eatPolarity : Reader Unit := do
  if (← atSign "+") || (← atSign "-") then advance

/-- `{ readonly [K in T as U]?: V }`. -/
def mappedType (self : Rules) : Reader (List Part) := do
  expectSign "\x7b"
  eatPolarity
  let _ ← eatWord "readonly"
  expectSign "["
  let _ ← bindingName
  expectWord "in"
  let domain ← self.type
  let renamed ← if ← eatWord "as" then self.type else pure []
  expectSign "]"
  eatPolarity
  let _ ← eatSign "?"
  let value ← typeAnnotation self
  unless ← atSign "\x7d" do memberEnd
  expectSign "\x7d"
  return domain ++ renamed ++ value

/-- A tuple element: `name?: T`, `...T`, `T?`. -/
def tupleElement (self : Rules) : Reader (List Part) := do
  let _ ← eatSign "..."
  let named ← peeks do
    unless ← atAnyWord do return false
    advance
    if ← atSign ":" then return true
    unless ← eatSign "?" do return false
    atSign ":"
  if named then
    advance
    let _ ← eatSign "?"
    expectSign ":"
  let t ← self.type
  let _ ← eatSign "?"
  return t

/-- `import('m', options).Name<T>`, from the word `import` on. -/
def importType (self : Rules) : Reader (List Part) := do
  expectWord "import"
  expectSign "("
  let argument ← self.type
  let options ← if ← eatSign "," then
      if ← atSign ")" then pure []
      else
        let o ← nested self.assignment
        let _ ← eatSign ","
        pure [o.part]
    else pure []
  expectSign ")"
  if ← eatSign "." then qualifiedName
  let args ← sameLineTypeArguments self
  return argument ++ options ++ args

/-- The rest of a template type after a piece that ends in a substitution. -/
def templateType (self : Rules) : Reader (List Part) :=
  loop [] fun parts => do
    match (← token).kind with
    | .template _ true => advance; return .inr parts
    | .template _ false =>
      advance
      let t ← self.type
      unless ← atSign "\x7d" do reject
      let c ← get
      match readTemplate (c.rest.length + 1) true [] c.rest with
      | some (cooked, last, rest) =>
        retoken (.template cooked last) rest
        return .inl (parts ++ t)
      | none => reject
    | _ => reject

/-- A type without operators or postfix brackets. -/
def atomType (self : Rules) : Reader (List Part) := do
  match (← token).kind with
  | .string _ => advance; return []
  | .number _ => advance; return []
  | .bigint _ => advance; return []
  | .template _ _ => templateType self
  | .sign "-" =>
    advance
    match (← token).kind with
    | .number _ => advance; return []
    | .bigint _ => advance; return []
    | _ => reject
  | .sign "\x7b" => if ← atMappedType then mappedType self else typeMembers self
  | .sign "[" =>
    advance
    let es ← commaList "]" (tupleElement self)
    expectSign "]"
    return es.flatten
  | .sign "(" =>
    advance
    let t ← self.type
    expectSign ")"
    return t
  | .word "typeof" _ =>
    advance
    if ← atWord "import" then importType self
    else
      qualifiedName
      sameLineTypeArguments self
  | .word "import" _ => importType self
  | .word "this" _ =>
    advance
    if (← atWord "is") && !(← onNewLine) then
      advance
      self.type
    else return []
  | .word "asserts" _ =>
    let states ← peeks do
      advance
      return ((← atName) || (← atWord "this")) && !(← onNewLine)
    if states then
      advance
      advance
      if ← eatWord "is" then self.type else return []
    else
      qualifiedName
      sameLineTypeArguments self
  | .word w _ =>
    if ["void", "null", "true", "false"].contains w then
      advance
      return []
    qualifiedName
    sameLineTypeArguments self
  | _ => reject

/-- A type with postfix brackets, on the same line: `T[]`, `T[K]`. -/
def postfixType (self : Rules) : Reader (List Part) := do
  let base ← atomType self
  loop base fun parts => do
    if (← atSign "[") && !(← onNewLine) then
      advance
      if ← eatSign "]" then return .inl parts
      let k ← self.type
      expectSign "]"
      return .inl (parts ++ k)
    if (← atSign "!") && !(← onNewLine) then
      advance
      return .inl parts
    return .inr parts

/-- `infer T extends U`, after the word `infer`. -/
def inferType (self : Rules) : Reader (List Part) := do
  let _ ← bindingName
  let bound ← attempt do
    expectWord "extends"
    let t ← inContext (fun c => { c with conditionalTypes := false }) self.type
    if (← read).conditionalTypes && (← atSign "?") then reject
    return t
  return bound.getD []

/-- A type with prefix operators. -/
def operatorType (self : Rules) : Reader (List Part) := do
  loop () fun _ => do
    if ["keyof", "unique", "readonly"].contains (← word) then
      advance
      return .inl ()
    return .inr ()
  if ← eatWord "infer" then inferType self
  else inContext (fun c => { c with conditionalTypes := true }) (postfixType self)

/-- Types joined by `&`. -/
def intersectionType (self : Rules) : Reader (List Part) := do
  let _ ← eatSign "&"
  return (← sepBy1 "&" (operatorType self)).flatten

/-- Types joined by `|`. -/
def unionType (self : Rules) : Reader (List Part) := do
  let _ ← eatSign "|"
  return (← sepBy1 "|" (intersectionType self)).flatten

/-- Any type. -/
def type (self : Rules) : Reader (List Part) := do
  if ← atSign "<" then return ← functionType self
  if (← atSign "(") && (← startsFunctionType self) then return ← functionType self
  let constructs ← peeks do
    if ← atWord "abstract" then advance
    atWord "new"
  if constructs then
    let _ ← eatWord "abstract"
    advance
    return ← functionType self
  let t ← unionType self
  if (← read).conditionalTypes && (← atWord "extends") && !(← onNewLine) then
    advance
    let bound ← inContext (fun c => { c with conditionalTypes := false }) self.type
    expectSign "?"
    let yes ← self.type
    expectSign ":"
    let no ← self.type
    return t ++ bound ++ yes ++ no
  return t

end Grammar
end Source
end DependencyUse
