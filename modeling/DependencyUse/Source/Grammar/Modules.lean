/-
# Import and export declarations

| statement | item |
| --- | --- |
| `import a, { b as c }, * as d from 'm'` | `importNames` |
| `import a = require('m')` | `importRequire` |
| `import a = b.c` | `importAlias` |
| `export { a as b } from 'm'` | `reexport` |
| `export * from 'm'`, `export * as a from 'm'` | `reexportAll` |
| every other `export` | the parts of what it exports |

Where types are known, `type` after `import`, `export` or inside the braces marks
what is gone when the program runs.  The word is a name as well:

| in braces | type only | source | local |
| --- | --- | --- | --- |
| `type` | no | `type` | `type` |
| `type as` | yes | `as` | `as` |
| `type as as` | no | `type` | `as` |
| `type as as as` | yes | `as` | `as` |
| `type x as y` | yes | `x` | `y` |
-/

import DependencyUse.Source.Grammar.Declarations

namespace DependencyUse
namespace Source
namespace Grammar

open Reader

/-- A name in an import or export list: a word or a string. -/
structure ModuleName where
  text : String
  quoted : Bool

/-- A name in an import or export list may start here. -/
def atModuleName : Reader Bool := do
  match (← token).kind with
  | .word _ _ => return true
  | .string _ => return true
  | _ => return false

/-- Reads a name in an import or export list. -/
def moduleName : Reader ModuleName := do
  match (← token).kind with
  | .word w _ => advance; return ⟨w, false⟩
  | .string s => advance; return ⟨s, true⟩
  | _ => reject

/-- An entry of an import or export list: the name on the left of `as`, the name on
its right. -/
structure Specifier where
  left : ModuleName
  right : ModuleName
  typeOnly : Bool

/-- An entry that starts with the word `type`, after it. -/
def typeSpecifier : Reader Specifier := do
  let typeName : ModuleName := ⟨"type", false⟩
  let asName : ModuleName := ⟨"as", false⟩
  if ← atWord "as" then
    advance
    if ← atWord "as" then
      advance
      if ← atModuleName then return ⟨asName, ← moduleName, true⟩
      return ⟨typeName, asName, false⟩
    if ← atModuleName then return ⟨typeName, ← moduleName, false⟩
    return ⟨asName, asName, true⟩
  if ← atModuleName then
    let left ← moduleName
    if ← eatWord "as" then return ⟨left, ← moduleName, true⟩
    return ⟨left, left, true⟩
  return ⟨typeName, typeName, false⟩

/-- An entry of an import or export list; `typeOnly` when the whole declaration is. -/
def specifier (typeOnly : Bool) : Reader Specifier := do
  let typed := (← read).typescript
  let s ← if ← atWord "type" then
      advance
      typeSpecifier
    else
      let left ← moduleName
      if ← eatWord "as" then pure ⟨left, ← moduleName, false⟩
      else pure ⟨left, left, false⟩
  flagIf (s.typeOnly && (typeOnly || !typed))
  return s

/-- The string after `from`. -/
def moduleText : Reader String := do
  match (← token).kind with
  | .string s => advance; return s
  | _ => reject

/-- `with { key: 'value' }` after a specifier, if it is due. -/
def importAttributes : Reader Unit := do
  let due := (← atWord "with") || ((← atWord "assert") && !(← onNewLine))
  if due then
    advance
    expectSign "\x7b"
    let _ ← commaList "\x7d" do
      let _ ← moduleName
      expectSign ":"
      moduleText
    expectSign "\x7d"

/-- `from 'm'` with its attributes and the end of the statement. -/
def fromClause : Reader String := do
  expectWord "from"
  let m ← moduleText
  importAttributes
  semicolon
  return m

/-! ## Imports -/

/-- The names in braces of an import declaration. -/
def namedImports (typeOnly : Bool) : Reader (List ImportName) := do
  expectSign "\x7b"
  let names ← commaList "\x7d" do
    let s ← specifier typeOnly
    if s.right.quoted || !isNameWord s.right.text then reject
    return ImportName.named s.left.text s.right.text s.typeOnly
  expectSign "\x7d"
  return names

/-- `* as name`. -/
def wholeImport : Reader ImportName := do
  expectSign "*"
  expectWord "as"
  return .whole (← bindingName)

/-- The names of an import declaration after its default name. -/
def importTail (typeOnly : Bool) : Reader (List ImportName) := do
  if ← atSign "*" then return [← wholeImport]
  namedImports typeOnly

/-- The value of `import name =`, with the end of the statement. -/
def importEquals (start : Nat) (typeOnly : Bool) (name : String) : Reader Item := do
  unless (← read).typescript do reject
  expectSign "="
  let requires ← peeks do
    unless ← atWord "require" do return false
    advance
    atSign "("
  if requires then
    advance
    advance
    let m ← moduleText
    expectSign ")"
    semicolon
    return .importRequire start m typeOnly name
  let root ← word
  qualifiedName
  semicolon
  return .importAlias root

/-- Whether the word `type` after `import` marks the declaration. -/
def importTypeDue : Reader Bool :=
  peeks do
    unless ← atWord "type" do return false
    advance
    if (← atSign "\x7b") || (← atSign "*") then return true
    unless ← atName do return false
    if ← atWord "from" then
      advance
      return (← atWord "from") || (← atSign "=")
    return true

/-- Whether the word `defer` or `source` after `import` is a phase. -/
def importPhaseDue : Reader Bool :=
  peeks do
    if ← atWord "defer" then
      advance
      return ← atSign "*"
    unless ← atWord "source" do return false
    advance
    unless ← atName do return false
    advance
    atWord "from"

/-- An import declaration. -/
def importDeclaration : Reader Item := do
  let start := (← token).start
  expectWord "import"
  match (← token).kind with
  | .string s =>
    advance
    importAttributes
    semicolon
    return .importNames start s false []
  | _ => pure ()
  let typeOnly ← importTypeDue
  if typeOnly then
    flagIf (!(← read).typescript)
    advance
  else if ← importPhaseDue then advance
  if ← atName then
    let name ← bindingName
    if ← atSign "=" then return ← importEquals start typeOnly name
    let more ← if ← eatSign "," then importTail typeOnly else pure []
    let m ← fromClause
    return .importNames start m typeOnly (.default name :: more)
  let names ← importTail typeOnly
  let m ← fromClause
  return .importNames start m typeOnly names

/-! ## Exports -/

/-- Notes exported names.  Where types are unknown, no name is exported twice. -/
def noteExports (names : List String) : Reader Unit := do
  unless (← read).typescript do
    let c ← get
    let all := names.foldl (fun (seen, twice) n => (n :: seen, twice || seen.contains n))
      (c.exported, false)
    set { c with exported := all.1, sound := c.sound && !all.2 }

/-- `export * from 'm'`, after `export` and `type`. -/
def exportAll (start : Nat) (typeOnly : Bool) : Reader Item := do
  expectSign "*"
  let name ← if ← eatWord "as" then pure (some (← moduleName).text) else pure none
  noteExports name.toList
  let m ← fromClause
  return .reexportAll start m typeOnly name

/-- A local name may be exported: a word that is not reserved. -/
def Specifier.isLocal (s : Specifier) : Bool :=
  !s.left.quoted && isNameWord s.left.text && !strictWords.contains s.left.text

/-- `export { … }`, after `export` and `type`.  What is no local name is refused. -/
def exportNames (start : Nat) (typeOnly : Bool) : Reader Item := do
  expectSign "\x7b"
  let names ← commaList "\x7d" (specifier typeOnly)
  expectSign "\x7d"
  noteExports (names.map (·.right.text))
  if ← atWord "from" then
    let m ← fromClause
    return .reexport start m typeOnly (names.map fun s => ⟨s.left.text, s.right.text, s.typeOnly⟩)
  semicolon
  flagIf (!names.all (·.isLocal))
  return .other ((names.filter (·.isLocal)).map fun s => .expr (.name s.left.text))

/-- What `export default` exports. -/
def exportDefault (self : Rules) : Reader (List Part) := do
  noteExports ["default"]
  let typed := (← read).typescript
  if ← atSign "@" then
    let ds ← decorators self
    let _ ← eatWord "abstract"
    return ds ++ (← classTail self).2
  if ← atWord "class" then return (← classTail self).2
  if (← atWord "function") || (← asyncFunctionDue) then
    let async ← eatWord "async"
    let (_, parts, hasBody) ← function self async true
    unless hasBody do semicolon
    return parts
  let follows (w : String) : Reader Bool := peeks do
    advance
    return (← atWord w) && !(← onNewLine)
  if typed && (← atWord "abstract") && (← follows "class") then
    advance
    return (← classTail self).2
  if typed && (← atWord "interface") && (← nameFollowsOnLine) then
    return (← interfaceDeclaration self).parts
  let o ← self.assignment
  semicolon
  return [o.part]

/-- A declaration after `export`. -/
def exportedDeclaration (self : Rules) : Reader (List Part) := do
  let typed := (← read).typescript
  let d ←
    if typed then typedDeclaration self
    else match ← word with
      | "var" => variableStatement self
      | "let" => variableStatement self
      | "const" => variableStatement self
      | "class" => classDeclaration self
      | "function" => functionDeclaration self false false
      | "async" => functionDeclaration self false false
      | _ => reject
  noteExports d.names
  return d.parts

/-- `type` after `export` marks a list, not an alias. -/
def exportTypeDue : Reader Bool :=
  peeks do
    unless ← atWord "type" do return false
    advance
    return (← atSign "\x7b") || (← atSign "*")

/-- An export declaration, after its decorators. -/
def exportDeclaration (self : Rules) (decorated : List Part) : Reader Item := do
  let start := (← token).start
  let typed := (← read).typescript
  expectWord "export"
  if ← exportTypeDue then
    unless typed do reject
    advance
    if ← atSign "*" then return ← exportAll start true
    return ← exportNames start true
  if ← atSign "*" then return ← exportAll start false
  if ← atSign "\x7b" then return ← exportNames start false
  if ← eatWord "default" then return .other (decorated ++ (← exportDefault self))
  if typed && (← atSign "=") then
    advance
    let o ← self.expression
    semicolon
    return .other [o.part]
  if typed && (← atWord "as") then
    advance
    expectWord "namespace"
    let _ ← bindingName
    semicolon
    return .other []
  if typed && (← atWord "import") then
    advance
    if ← importTypeDue then advance
    let name ← bindingName
    return .other (← importEquals start false name).parts
  let inner ← decorators self
  flagIf (!(decorated.isEmpty && inner.isEmpty) && !(← classDue))
  return .other (decorated ++ inner ++ (← exportedDeclaration self))

end Grammar
end Source
end DependencyUse
