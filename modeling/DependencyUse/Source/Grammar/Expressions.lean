/-
# Expressions

| goal | forms |
| --- | --- |
| `expression` | `a, b` |
| `assignment` | `yield a`, arrow functions, `t = a`, `c ? a : b` |
| `binary level` | operators that bind tighter than `level` |
| `unary` | `-a`, `typeof a`, `await a`, `<T>a`, `++a`, `a++` |
| `leftHand` | calls, members, tagged templates, type arguments |
| `primary` | names, literals, functions, classes, `new`, `import(…)`, `(a)` |

An operator of level 12, `**`, groups to the right and takes no prefix operator on
its left; `??` does not mix with `||` and `&&`.
-/

import DependencyUse.Source.Grammar.Functions
import DependencyUse.Source.Grammar.Markup

namespace DependencyUse
namespace Source
namespace Grammar

open Reader

/-! ## Operators -/

/-- How tight a sign binds as a binary operator. -/
def signLevel : String → Option Nat
  | "??" => some 1
  | "||" => some 2
  | "&&" => some 3
  | "|" => some 4
  | "^" => some 5
  | "&" => some 6
  | "==" => some 7
  | "!=" => some 7
  | "===" => some 7
  | "!==" => some 7
  | "<" => some 8
  | ">" => some 8
  | "<=" => some 8
  | ">=" => some 8
  | "<<" => some 9
  | ">>" => some 9
  | ">>>" => some 9
  | "+" => some 10
  | "-" => some 10
  | "*" => some 11
  | "/" => some 11
  | "%" => some 11
  | "**" => some 12
  | _ => none

/-- The signs that assign. -/
def assignmentSigns : List String :=
  ["=", "+=", "-=", "*=", "/=", "%=", "**=", "<<=", ">>=", ">>>=", "&=", "|=", "^=", "&&=", "||=",
   "??="]

/-- Reads a `>` and the signs it starts as one operator. -/
def joinAngle : Reader Unit := do
  if ← atSign ">" then
    match readAngle (← get).here with
    | some (s, rest) => retoken (.sign s) rest
    | none => pure ()

/-- How tight the due token binds as a binary operator. -/
def operatorLevel : Reader (Option Nat) := do
  let ctx ← read
  match (← token).kind with
  | .sign s => return signLevel s
  | .word "instanceof" _ => return some 8
  | .word "in" _ => return if ctx.allowIn then some 8 else none
  | .word "as" _ => return if ctx.typescript && !(← onNewLine) then some 8 else none
  | .word "satisfies" _ => return if ctx.typescript && !(← onNewLine) then some 8 else none
  | _ => return none

/-- The form of `a op b`; `??` mixed with `||` or `&&` is refused. -/
def joinForms (op : String) (a b : Form) : Reader Form := do
  match op with
  | "??" => flagIf (a == .logical || b == .logical); return .coalesce
  | "||" => flagIf (a == .coalesce || b == .coalesce); return .logical
  | "&&" => flagIf (a == .coalesce || b == .coalesce); return .logical
  | _ => return .plain

/-- The operators after a first operand that bind tighter than `level`. -/
def binaryRest (self : Rules) (level : Nat) (first : Operand) : Reader Operand :=
  loop first fun lhs => do
    joinAngle
    match ← operatorLevel with
    | none => return .inr lhs
    | some l =>
      if l < level || (l == level && l != 12) then return .inr lhs
      let w ← word
      if w == "as" || w == "satisfies" then
        keyword
        let t ← self.type
        let wrapper := if w == "as" then Wrapper.asType else .satisfies
        return .inl ⟨.wrapped wrapper lhs.expr t, .reference, 0⟩
      let op ← sign
      if op == "" then keyword else advance
      let rhs ← self.binary l
      let form ← joinForms op lhs.form rhs.form
      return .inl ⟨.other [lhs.part, rhs.part], form, 0⟩

/-- Operators that bind tighter than `level`. -/
def binary (self : Rules) (level : Nat) : Reader Operand := do
  match (← token).kind with
  | .hidden _ =>
    advance
    expectWord "in"
    let rhs ← self.binary 8
    binaryRest self level (compound [rhs.part])
  | _ => binaryRest self level (← self.unary)

/-! ## Prefix and postfix operators -/

/-- `**` takes no prefix operator on its left. -/
def noPower : Reader Unit := do flagIf (← atSign "**")

/-- `await` starts an await expression here. -/
def atAwait : Reader Bool := do
  unless ← atWord "await" do return false
  if (← read).await then return true
  peeks do
    advance
    wordOrLiteralOnLine

/-- `++a`, `a--` or just a left-hand side. -/
def update (self : Rules) : Reader Operand := do
  if (← atSign "++") || (← atSign "--") then
    advance
    let o ← self.unary
    assignTo o true
    return compound [o.part]
  let o ← self.leftHand
  if ((← atSign "++") || (← atSign "--")) && !(← onNewLine) then
    advance
    assignTo o true
    return compound [o.part]
  return o

/-- A prefix operator and its operand, or an update expression. -/
def unary (self : Rules) : Reader Operand := do
  let ctx ← read
  let s ← sign
  let w ← word
  if ["+", "-", "~", "!"].contains s || ["delete", "typeof", "void"].contains w then
    if s == "" then keyword else advance
    let o ← self.unary
    noPower
    return compound [o.part]
  if s == "<" && !ctx.markup then
    unless ctx.typescript do reject
    advance
    let t ← self.type
    expectSign ">"
    let o ← self.unary
    noPower
    return ⟨.wrapped .assertion o.expr t, .reference, 0⟩
  if ← atAwait then
    flagIf (!ctx.await)
    keyword
    let o ← self.unary
    noPower
    return ⟨.await o.expr, .plain, 0⟩
  update self

/-! ## Templates and arguments -/

/-- A template: its value when it has one piece, and its substitutions.  Only a
tagged template may hold an escape without a value. -/
def template (self : Rules) (tagged : Bool) : Reader Expr :=
  loop ((none : Option String), true, ([] : List Expr)) fun (_, first, rev) => do
    match (← token).kind with
    | .template cooked last =>
      flagIf (cooked.isNone && !tagged)
      advance
      if last then
        return .inr (.template (if first then cooked else none) rev.reverse)
      let e ← nested self.expression
      unless ← atSign "\x7d" do reject
      let c ← get
      match readTemplate (c.rest.length + 1) true [] c.rest with
      | some (cooked, last, rest) =>
        retoken (.template cooked last) rest
        return .inl (none, false, e.expr :: rev)
      | none => reject
    | _ => reject

/-- One argument of a call. -/
def argument (self : Rules) : Reader Expr := do
  if ← eatSign "..." then return .spread (← self.assignment).expr
  return (← self.assignment).expr

/-- The arguments of a call in parentheses. -/
def arguments (self : Rules) : Reader (List Expr) := do
  expectSign "("
  let args ← nested (commaList ")" (argument self))
  expectSign ")"
  return args

/-- An expression may start here. -/
def startsExpression : Reader Bool := do
  match (← token).kind with
  | .sign s =>
    return ["(", "[", "\x7b", "+", "-", "~", "!", "++", "--", "<", "/", "/=", "@"].contains s
  | .word w _ =>
    return isNameWord w || ["this", "super", "null", "true", "false", "function", "class", "new",
      "delete", "typeof", "void", "import"].contains w
  | .eof => return false
  | .bad => return false
  | _ => return true

/-- What follows type arguments shows that they are no comparisons. -/
def followsTypeArguments : Reader Bool := do
  match (← token).kind with
  | .template _ _ => return true
  | .sign "(" => return true
  | .sign "<" => return false
  | .sign ">" => return false
  | .sign "+" => return false
  | .sign "-" => return false
  | _ => return (← onNewLine) || (← operatorLevel).isSome || !(← startsExpression)

/-- Type arguments in an expression, if the text reads so. -/
def typeArgumentsHere (self : Rules) : Reader (Option (List Part)) := do
  unless (← read).typescript && (← atOpenAngle) do return none
  attempt do
    unless ← eatOpenAngle do reject
    let args ← commaList ">" self.type
    if args.isEmpty || (← get).here.take 2 == ['>', '='] then reject
    expectSign ">"
    unless ← followsTypeArguments do reject
    return args.flatten

/-! ## Calls and members -/

/-- A left-hand side so far, and whether it holds a `?.` link. -/
structure Access where
  operand : Operand
  chained : Bool := false

/-- `object.name` or `object.#name`, after the dot. -/
def memberAfterDot (object : Expr) : Reader Operand := do
  match (← token).kind with
  | .hidden _ =>
    advance
    return ⟨.other [.expr object], .reference, 0⟩
  | _ => return ⟨.member object (← anyWord), .reference, 0⟩

/-- `object[key]`, at the bracket. -/
def indexAfter (self : Rules) (object : Expr) : Reader Operand := do
  expectSign "["
  let key ← nested self.expression
  expectSign "]"
  return ⟨.index object key.expr, .reference, 0⟩

/-- A call of `callee`, whose type arguments may have been read with it. -/
def callOf (self : Rules) (start : Nat) (callee : Expr) (types : List Part) : Reader Operand := do
  let args ← arguments self
  match callee, types with
  | .wrapped .instantiation f ts, [] => return ⟨.call start f ts args, .plain, 0⟩
  | f, ts => return ⟨.call start f ts args, .plain, 0⟩

/-- The link after `?.`; calls are links only where `calls`. -/
def optionalLink (self : Rules) (start : Nat) (calls : Bool) (e : Expr) : Reader Operand := do
  advance
  if calls then
    if ← atSign "(" then return ← callOf self start e []
    match ← typeArgumentsHere self with
    | some ts =>
      unless ← atSign "(" do reject
      return ← callOf self start e ts
    | none => pure ()
  if ← atSign "[" then indexAfter self e else memberAfterDot e

/-- The members, calls and wrappers after a first operand. -/
def accessRest (self : Rules) (start : Nat) (calls : Bool) (first : Operand) : Reader Access :=
  loop (⟨first, false⟩ : Access) fun a => do
    let ctx ← read
    let e := a.operand.expr
    match (← token).kind with
    | .sign "." =>
      advance
      return .inl { a with operand := ← memberAfterDot e }
    | .sign "?." => return .inl ⟨← optionalLink self start calls e, true⟩
    | .sign "[" =>
      if ctx.decorator then return .inr a
      return .inl { a with operand := ← indexAfter self e }
    | .sign "!" =>
      if !ctx.typescript || (← onNewLine) then return .inr a
      advance
      return .inl { a with operand := ⟨.wrapped .nonNull e [], .reference, 0⟩ }
    | .template _ _ =>
      flagIf a.chained
      let t ← template self true
      return .inl { a with operand := compound [.expr e, .expr t] }
    | .sign "(" =>
      if !calls then return .inr a
      return .inl { a with operand := ← callOf self start e [] }
    | _ =>
      match ← typeArgumentsHere self with
      | some ts => return .inl { a with operand := ⟨.wrapped .instantiation e ts, .plain, 0⟩ }
      | none => return .inr a

/-- A left-hand side: calls and members of a primary expression. -/
def leftHand (self : Rules) : Reader Operand := do
  let start := (← token).start
  let a ← accessRest self start true (← self.primary)
  if a.chained then return compound [a.operand.part]
  return a.operand

/-- `new callee(args)`, `new callee`, `new.target`. -/
def construct (self : Rules) : Reader Operand := do
  let start := (← token).start
  expectWord "new"
  if ← eatSign "." then
    expectWord "target"
    return compound []
  let base ← self.primary
  match base.expr with
  | .load _ _ _ => flag
  | _ => pure ()
  let a ← accessRest self start false base
  flagIf a.chained
  let args ← if ← atSign "(" then arguments self else pure []
  match a.operand.expr with
  | .wrapped .instantiation f ts => return ⟨.construct start f ts args, .plain, 0⟩
  | f => return ⟨.construct start f [] args, .plain, 0⟩

/-- `import(source, options)`, at the parenthesis. -/
def importCall (self : Rules) (start : Nat) : Reader Operand := do
  expectSign "("
  let source ← nested self.assignment
  let options ← if ← eatSign "," then
      if ← atSign ")" then pure [] else pure [(← nested self.assignment).expr]
    else pure []
  let _ ← eatSign ","
  expectSign ")"
  return ⟨.load start source.expr options, .plain, 0⟩

/-- `import.meta`, `import(…)`, `import.defer(…)`, `import.source(…)`. -/
def importExpression (self : Rules) : Reader Operand := do
  let start := (← token).start
  expectWord "import"
  if ← eatSign "." then
    if ← eatWord "meta" then return compound []
    unless ← eatWord "defer" do expectWord "source"
  importCall self start

/-! ## Literals -/

/-- An element of an array literal: a hole, a spread or a value. -/
structure Element where
  parts : List Part
  isElement : Bool
  isRest : Bool := false
  inits : Nat := 0

/-- Whether elements can be read as those of a pattern: a rest element is the last
and no comma follows it. -/
def elementsFit (es : List Element) (trailingComma : Bool) : Bool :=
  es.all (·.isElement) && es.dropLast.all (!·.isRest) &&
    !(trailingComma && (es.getLast?.map (·.isRest)).getD false)

/-- The literal that consists of `es`. -/
def literalOf (es : List Element) (trailingComma : Bool) : Operand :=
  ⟨.other (es.flatMap (·.parts)),
   if elementsFit es trailingComma then .literal else .plain,
   es.foldl (fun n e => n + e.inits) 0⟩

/-- A spread in a literal, after its dots. -/
def spreadElement (self : Rules) : Reader Element := do
  let o ← self.assignment
  return ⟨[o.part], o.isRest, true, o.inits⟩

/-- An array literal. -/
def arrayLiteral (self : Rules) : Reader Operand := do
  expectSign "["
  nested <| loop (([] : List Element), false) fun (rev, comma) => do
    if ← eatSign "]" then return .inr (literalOf rev.reverse comma)
    if ← eatSign "," then return .inl (⟨[], true, false, 0⟩ :: rev, false)
    let e ← if ← eatSign "..." then spreadElement self else
      let o ← self.assignment
      pure ⟨[o.part], o.isElement, false, o.inits⟩
    if ← eatSign "," then return .inl (e :: rev, true)
    unless ← atSign "]" do reject
    return .inl (e :: rev, false)

/-- A method of an object literal from its parameters on. -/
def methodElement (self : Rules) (key : Key) (async generator : Bool) : Reader Element := do
  let tail ← functionTail self async generator
  unless tail.hasBody do reject
  return ⟨key.parts ++ tail.parts, false, false, 0⟩

/-- A property that stands for the value of its own name, maybe with an initialiser
that becomes a default if the literal becomes a pattern. -/
def shorthandElement (self : Rules) (name : String) : Reader Element := do
  unless isNameHere (← read) name do reject
  if ← eatSign "=" then
    let init ← nested self.assignment
    modify fun c => { c with pending := c.pending + 1 }
    return ⟨[.expr (.name name), init.part], true, false, 1⟩
  return ⟨[.expr (.name name)], true, false, 0⟩

/-- A property of an object literal. -/
def property (self : Rules) : Reader Element := do
  if ← eatSign "..." then return ← spreadElement self
  let accessorDue ← peeks do
    unless (← atWord "get") || (← atWord "set") do return false
    advance
    atPropertyKey
  if accessorDue then
    let setter ← atWord "set"
    keyword
    let key ← propertyKey self
    let tail ← functionTail self false false
    unless tail.hasBody do reject
    checkAccessor setter tail.parameters
    return ⟨key.parts ++ tail.parts, false, false, 0⟩
  let async ← if (← atWord "async") && (← applies true) then keyword; pure true else pure false
  let generator ← eatSign "*"
  let name ← word
  let key ← propertyKey self
  if key.hidden then reject
  if async || generator || (← atSign "(") || (← atSign "<") then
    return ← methodElement self key async generator
  if ← eatSign ":" then
    let o ← self.assignment
    return ⟨key.parts ++ [o.part], o.isElement, false, o.inits⟩
  unless key.plain do reject
  shorthandElement self name

/-- An object literal. -/
def objectLiteral (self : Rules) : Reader Operand := do
  expectSign "\x7b"
  nested <| loop (([] : List Element), false) fun (rev, comma) => do
    if ← eatSign "\x7d" then return .inr (literalOf rev.reverse comma)
    let e ← property self
    if ← eatSign "," then return .inl (e :: rev, true)
    unless ← atSign "\x7d" do reject
    return .inl (e :: rev, false)

/-- `(expression)`. -/
def parenthesised (self : Rules) : Reader Operand := do
  expectSign "("
  let o ← nested self.expression
  expectSign ")"
  return ⟨.wrapped .parentheses o.expr [], if o.form == .reference then .reference else .plain, 0⟩

/-- A regular expression at its slash. -/
def regex : Reader Operand := do
  let c ← get
  match skipRegex c.here with
  | some rest =>
    jump rest (c.token.start + (byteLength c.here - byteLength rest))
    return compound []
  | none => reject

/-- `function` follows `async` on the same line. -/
def asyncFunctionDue : Reader Bool := do
  unless ← atWord "async" do return false
  peeks do
    advance
    return (← atWord "function") && !(← onNewLine)

/-- A function expression, which has a body. -/
def functionExpression (self : Rules) (async : Bool) : Reader Operand := do
  if async then keyword
  let (_, parts, hasBody) ← function self async false
  unless hasBody do reject
  return compound parts

/-- A primary expression that starts with the word `w`. -/
def primaryWord (self : Rules) (w : String) : Reader Operand := do
  match w with
  | "this" => keyword; return ⟨.this, .plain, 0⟩
  | "null" => keyword; return compound []
  | "true" => keyword; return compound []
  | "false" => keyword; return compound []
  | "function" => functionExpression self false
  | "class" => return compound (← classTail self).2
  | "new" => construct self
  | "import" => importExpression self
  | "super" =>
    keyword
    unless ["(", ".", "["].contains (← sign) do reject
    return compound []
  | _ =>
    if ← asyncFunctionDue then return ← functionExpression self true
    unless isNameHere (← read) w do reject
    advance
    return ⟨.name w, .reference, 0⟩

/-- A primary expression. -/
def primary (self : Rules) : Reader Operand := do
  match (← token).kind with
  | .word w _ => primaryWord self w
  | .string s => advance; return ⟨.string s, .plain, 0⟩
  | .number _ => advance; return compound []
  | .bigint _ => advance; return compound []
  | .template _ _ => return ⟨← template self false, .plain, 0⟩
  | .sign "(" => parenthesised self
  | .sign "[" => arrayLiteral self
  | .sign "\x7b" => objectLiteral self
  | .sign "/" => regex
  | .sign "/=" => regex
  | .sign "@" =>
    let ds ← decorators self
    let (_, parts) ← classTail self
    return compound (ds ++ parts)
  | .sign "<" =>
    let e ← self.markup
    advance
    return ⟨e, .plain, 0⟩
  | _ => reject

/-! ## Arrow functions -/

/-- What the tokens after an opening parenthesis or angle say about an arrow
function: `some` when they decide it. -/
def arrowAfterParenthesis : Reader (Option Bool) := do
  let s ← sign
  if s == ")" then
    advance
    return some (["=>", ":", "\x7b"].contains (← sign))
  if s == "[" || s == "\x7b" then return none
  if s == "..." then return some true
  let w ← word
  let name ← atName
  if modifierWords.contains w && w != "async" then
    let second ← lookahead do
      advance
      return (isNameWord (← word), ← word)
    match second with
    | some (true, v) => return some (v != "as")
    | _ => pure ()
  unless name || w == "this" do return some false
  advance
  match ← sign with
  | ":" => return some true
  | "?" =>
    advance
    return some ([":", ",", "=", ")"].contains (← sign))
  | "," => return none
  | "=" => return none
  | ")" => return none
  | _ => return some false

/-- Whether `<` starts the type parameters of an arrow function. -/
def arrowAfterAngle : Reader (Option Bool) := do
  unless (← atName) || (← atWord "const") do return some false
  if (← read).markup then
    let _ ← eatWord "const"
    advance
    if ← atWord "extends" then
      advance
      return some (!(["=", ">", "/"].contains (← sign)))
    return some ((← atSign ",") || (← atSign "="))
  return none

/-- Whether an arrow function with parenthesised parameters is due. -/
def arrowDue : Reader (Option Bool) := do
  let answer ← lookahead do
    if ← atWord "async" then
      advance
      if ← onNewLine then return some false
    match ← sign with
    | "(" => advance; arrowAfterParenthesis
    | "<" => advance; arrowAfterAngle
    | _ => return some false
  return answer.getD (some false)

/-- An arrow function up to its arrow. -/
structure ArrowHead where
  async : Bool
  parts : List Part
  typed : Bool

/-- Reads an arrow function up to and with its arrow. -/
def arrowHead (self : Rules) : Reader ArrowHead := do
  let async ← eatWord "async"
  let (parts, typed) ← inContext (fun c => { c with await := c.await || async }) do
    let generics ← typeParameters self
    let ps ← parameters self
    let result ← resultAnnotation self
    return (generics ++ ps.parts ++ result, !result.isEmpty)
  flagIf (← onNewLine)
  expectSign "=>"
  return ⟨async, parts, typed⟩

/-- The body of an arrow function. -/
def arrowBody (self : Rules) (async arrowType : Bool) : Reader (List Part) := do
  if ← atSign "\x7b" then inContext (functionContext async false) (block self)
  else
    let o ← inContext (fun c => { c with await := async, yield := false }) (self.assignment arrowType)
    return [o.part]

/-- An arrow function with parenthesised parameters, if the text reads so.  Where no
result type is allowed, one that is read must be followed by a colon. -/
def arrowFunction (self : Rules) (arrowType : Bool) : Reader (Option Operand) := do
  match ← arrowDue with
  | some false => return none
  | due =>
    let start ← get
    let certain := due == some true
    let head ← if certain then pure (some (← arrowHead self)) else attempt (arrowHead self)
    match head with
    | none => return none
    | some h =>
      if h.typed && !arrowType && !certain then
        let whole ← attempt do
          let body ← arrowBody self h.async arrowType
          unless ← atSign ":" do reject
          return compound (h.parts ++ body)
        if whole.isNone then set start
        return whole
      else
        let body ← arrowBody self h.async (arrowType || certain)
        return some (compound (h.parts ++ body))

/-- `async x =>` is due. -/
def asyncArrowDue : Reader Bool := do
  unless ← atWord "async" do return false
  peeks do
    advance
    if !(← atName) || (← onNewLine) then return false
    advance
    return (← atSign "=>") && !(← onNewLine)

/-! ## Assignment and sequence -/

/-- `yield` starts a yield expression here. -/
def atYield : Reader Bool := do
  unless ← atWord "yield" do return false
  if (← read).yield then return true
  peeks do
    advance
    wordOrLiteralOnLine

/-- `yield`, `yield a`, `yield* a`. -/
def yieldExpression (self : Rules) : Reader Operand := do
  flagIf (!(← read).yield)
  keyword
  if ← onNewLine then return compound []
  if ← eatSign "*" then return compound [(← self.assignment).part]
  let ends := [";", "\x7d", ")", "]", ":", ","].contains (← sign) || (← atEnd) || (← atWord "in")
  if ends then return compound []
  return compound [(← self.assignment).part]

/-- The rest of an assignment or conditional after its first operand. -/
def assignmentRest (self : Rules) (arrowType : Bool) (lhs : Operand) : Reader Operand := do
  let s ← sign
  if s == "=>" then
    match lhs.expr with
    | .name _ =>
      flagIf (← onNewLine)
      advance
      return compound (← arrowBody self false arrowType)
    | _ => reject
  if assignmentSigns.contains s then
    assignTo lhs (s != "=")
    advance
    let rhs ← self.assignment arrowType
    return ⟨.other [lhs.part, rhs.part], if s == "=" then .assignment else .plain, 0⟩
  if ← eatSign "?" then
    let yes ← inContext (fun c => { c with allowIn := true }) (self.assignment false)
    expectSign ":"
    let no ← self.assignment arrowType
    return compound [lhs.part, yes.part, no.part]
  return lhs

/-- An expression without comma. -/
def assignment (self : Rules) (arrowType : Bool) : Reader Operand := do
  if ← atYield then return ← yieldExpression self
  match ← arrowFunction self arrowType with
  | some o => return o
  | none => pure ()
  if ← asyncArrowDue then
    keyword
    let _ ← inContext (fun c => { c with await := true }) bindingName
    advance
    return compound (← arrowBody self true arrowType)
  assignmentRest self arrowType (← self.binary 0)

/-- An expression, with commas. -/
def expression (self : Rules) : Reader Operand := do
  let first ← self.assignment
  unless ← atSign "," do return first
  advance
  let more ← sepBy1 "," self.assignment
  return ⟨.sequence (first.expr :: more.map (·.expr)), .plain, 0⟩

end Grammar
end Source
end DependencyUse
