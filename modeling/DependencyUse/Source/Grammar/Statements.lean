/-
# Statements

A statement yields an item; inside another statement only its parts count.  In the
body of `if`, a loop or a label no lexical declaration stands without a block.

A statement ends at a semicolon, before a closing brace or the end of the text, or
where a line ends and the next token cannot continue it.
-/

import DependencyUse.Source.Grammar.Modules

namespace DependencyUse
namespace Source
namespace Grammar

open Reader

/-- `(expression)` after the word of a statement. -/
def condition (self : Rules) : Reader Part := do
  expectSign "("
  let o ← nested self.expression
  expectSign ")"
  return o.part

/-- The body of a compound statement. -/
def body (self : Rules) : Reader (List Part) := return (← self.statement true).parts

/-- `if (a) b else c`. -/
def ifStatement (self : Rules) : Reader (List Part) := do
  keyword
  let test ← condition self
  let yes ← body self
  let no ← if ← eatWord "else" then body self else pure []
  return test :: (yes ++ no)

/-- `do a while (b)`; a semicolon after it is optional. -/
def doStatement (self : Rules) : Reader (List Part) := do
  keyword
  let inner ← body self
  expectWord "while"
  let test ← condition self
  let _ ← eatSign ";"
  return inner ++ [test]

/-! ## For loops -/

/-- A loop over `test; update`, after the first semicolon is due. -/
def forRest (self : Rules) (init : List Part) : Reader (List Part) := do
  expectSign ";"
  let test ← if ← atSign ";" then pure [] else pure [(← nested self.expression).part]
  expectSign ";"
  let step ← if ← atSign ")" then pure [] else pure [(← nested self.expression).part]
  expectSign ")"
  return init ++ test ++ step ++ (← body self)

/-- A loop over the members or keys of a value, at `of` or `in`. -/
def forEach (self : Rules) (left : List Part) : Reader (List Part) := do
  let right ← if ← eatWord "of" then nested self.assignment else
    keyword
    nested self.expression
  expectSign ")"
  return left ++ right.part :: (← body self)

/-- `of` or `in` is due. -/
def atEach : Reader Bool := return (← atWord "of") || (← atWord "in")

/-- A variable declaration starts the head of a loop. -/
def forDeclares : Reader Bool := do
  if (← atWord "var") || (← atWord "const") then return true
  if ← letDue false then return true
  peeks do
    if ← atWord "await" then
      advance
      if ← onNewLine then return false
    unless ← atWord "using" do return false
    advance
    if ← onNewLine then return false
    if ← atWord "of" then
      advance
      return ["=", ";", ":"].contains (← sign)
    atName

/-- `for (async of …)` is no loop. -/
def asyncOfDue : Reader Bool :=
  peeks do
    unless ← atWord "async" do return false
    advance
    unless ← atWord "of" do return false
    advance
    return !(← atSign "=>")

/-- A `for` statement. -/
def forStatement (self : Rules) : Reader (List Part) := do
  keyword
  let awaits ← atWord "await"
  if awaits then
    flagIf (!(← read).await)
    keyword
  expectSign "("
  if ← atSign ";" then
    flagIf awaits
    return ← forRest self []
  let noIn (c : Context) : Context := { c with allowIn := false }
  if ← forDeclares then
    let w ← variableWord
    let vs ← inContext noIn (declarators self)
    let parts := vs.flatMap (·.parts)
    if ← atEach then return ← forEach self parts
    flagIf awaits
    checkValues w vs
    return ← forRest self parts
  let asyncOf ← asyncOfDue
  let startsLet ← atWord "let"
  let o ← inContext noIn self.expression
  if ← atEach then
    let overMembers ← atWord "of"
    flagIf (overMembers && (startsLet || (asyncOf && !awaits)))
    assignTo o false
    return ← forEach self [o.part]
  flagIf awaits
  forRest self [o.part]

/-! ## Jumps, switch, try -/

/-- `break` or `continue` with an optional label. -/
def jumpStatement : Reader (List Part) := do
  keyword
  if (← atName) && !(← onNewLine) then advance
  semicolon
  return []

/-- `return` with an optional value. -/
def returnStatement (self : Rules) : Reader (List Part) := do
  flagIf (!(← read).allowReturn)
  keyword
  if ← mayEnd then
    semicolon
    return []
  let o ← nested self.expression
  semicolon
  return [o.part]

/-- `throw a`, on one line. -/
def throwStatement (self : Rules) : Reader (List Part) := do
  keyword
  if ← onNewLine then reject
  let o ← nested self.expression
  semicolon
  return [o.part]

/-- One clause of a switch. -/
def switchClause (self : Rules) : Reader (List Part) := do
  let test ← if ← eatWord "default" then pure [] else
    expectWord "case"
    pure [(← nested self.expression).part]
  expectSign ":"
  let inner ← loop ([] : List Part) fun parts => do
    if (← atSign "\x7d") || (← atWord "case") || (← atWord "default") then return .inr parts
    return .inl (parts ++ (← self.statement false).parts)
  return test ++ inner

/-- `switch (a) { … }`. -/
def switchStatement (self : Rules) : Reader (List Part) := do
  keyword
  let test ← condition self
  expectSign "\x7b"
  let clauses ← many "\x7d" (switchClause self)
  expectSign "\x7d"
  return test :: clauses.flatten

/-- `try` with `catch`, `finally` or both. -/
def tryStatement (self : Rules) : Reader (List Part) := do
  keyword
  let guarded ← block self
  let caught ← if ← eatWord "catch" then
      let parameter ← if ← eatSign "(" then
          let b ← self.pattern
          let annotation ← typeAnnotation self
          expectSign ")"
          pure (b.parts ++ annotation)
        else pure []
      pure (some (parameter ++ (← block self)))
    else pure none
  let last ← if ← eatWord "finally" then pure (some (← block self)) else pure none
  if caught.isNone && last.isNone then reject
  return guarded ++ caught.getD [] ++ last.getD []

/-! ## Dispatch -/

/-- An expression as a statement. -/
def expressionStatement (self : Rules) : Reader Item := do
  let o ← self.expression
  semicolon
  return .other [o.part]

/-- `import` starts an expression: `import(…)` or `import.meta`. -/
def importIsExpression : Reader Bool :=
  peeks do
    advance
    return (← atSign "(") || (← atSign ".")

/-- `name:` is due. -/
def labelDue : Reader Bool := do
  unless isNameHere (← read) (← word) do return false
  peeks do
    advance
    atSign ":"

/-- A decorated class or export. -/
def decoratedStatement (self : Rules) : Reader Item := do
  let ds ← decorators self
  if ← atWord "export" then return ← exportDeclaration self ds
  flagIf (!(← classDue))
  if (← read).typescript then
    let d ← typedDeclaration self
    return .other (ds ++ d.parts)
  let d ← classDeclaration self
  return .other (ds ++ d.parts)

/-- A statement that starts with a name, or any expression. -/
def otherStatement (self : Rules) (single : Bool) : Reader Item := do
  if ← labelDue then
    advance
    advance
    return .other (← body self)
  if (← letDue single) || (← usingDue) then
    flagIf single
    return .other (← variableStatement self).parts
  if ← asyncFunctionDue then return .other (← functionDeclaration self single false).parts
  if (← read).typescript && (← typedDeclarationDue) then
    return .other (← typedDeclaration self).parts
  expressionStatement self

/-- A statement. -/
def statement (self : Rules) (single : Bool) : Reader Item := do
  match (← token).kind with
  | .sign "\x7b" => return .other (← block self)
  | .sign ";" => advance; return .other []
  | .sign "@" => decoratedStatement self
  | .word w _ =>
    match w with
    | "if" => return .other (← ifStatement self)
    | "do" => return .other (← doStatement self)
    | "while" =>
      keyword
      let test ← condition self
      return .other (test :: (← body self))
    | "for" => return .other (← forStatement self)
    | "with" =>
      keyword
      let scope ← condition self
      return .other (scope :: (← body self))
    | "break" => return .other (← jumpStatement)
    | "continue" => return .other (← jumpStatement)
    | "return" => return .other (← returnStatement self)
    | "throw" => return .other (← throwStatement self)
    | "switch" => return .other (← switchStatement self)
    | "try" => return .other (← tryStatement self)
    | "debugger" => keyword; semicolon; return .other []
    | "class" => flagIf single; return .other (← classDeclaration self).parts
    | "function" => return .other (← functionDeclaration self single false).parts
    | "var" => return .other (← variableStatement self).parts
    | "const" =>
      flagIf single
      if (← read).typescript then return .other (← typedDeclaration self).parts
      return .other (← variableStatement self).parts
    | "export" => exportDeclaration self []
    | "import" =>
      if ← importIsExpression then expressionStatement self else importDeclaration
    | _ => otherStatement self single
  | _ => expressionStatement self

end Grammar
end Source
end DependencyUse
