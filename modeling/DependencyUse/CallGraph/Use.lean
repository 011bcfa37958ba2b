/-
# Uses in a module

What a module does with its names, in the order in which it is read: a call comes
before what its callee and its arguments do.

| form | uses |
| --- | --- |
| `f(…)` | a plain call of `f` |
| `a.b.f(…)` | a method call of `f` on `a.b` |
| `a['f'](…)` | a computed call of `f` on `a`; none if the key is no literal |
| `(x, f)(…)` | as `f(…)` |
| `new C(…)`, `new a.C(…)` | a constructor call |
| `a` | a mention of `a` |
| `a.b.c` | mentions of `a.b.c`, `a.b` and `a` |

Wrappers do not matter.  A dotted name starts at a name or at `this`; a member of
anything else has no receiver.  Code that is made at run time:

| form | kind |
| --- | --- |
| `eval(…)` | eval |
| `window.eval(…)`, `(0, eval)(…)` | indirect eval |
| `Function(…)`, `new Function(…)` | function constructor |
| `setTimeout('…')`, `setInterval('…')` | string timer |
| `require(e)` with one argument, `import(e)`, no literal | computed require, computed import |
-/

import DependencyUse.CallGraph.Basic
import DependencyUse.Import.Site
import DependencyUse.Source.Tree

namespace DependencyUse

/-- One thing that a module does with a name. -/
inductive Use where
  | call (callee : String) (receiver : Option String) (kind : CallKind) (start : Nat)
  | dynamic (kind : DynamicKind) (start : Nat) (context : String)
  | mention (name : String)
deriving DecidableEq, Repr, Inhabited

namespace Source

/-- `a.b.c` for members of a name or of `this`. -/
def Expr.dotted? : Expr → Option String
  | .name id => some id
  | .this => some "this"
  | .member object property => object.dotted?.map fun path => path ++ "." ++ property
  | .wrapped _ inner _ => inner.dotted?
  | _ => none

/-- A string or a template. -/
def Expr.isText (e : Expr) : Bool :=
  match e.inner with
  | .string _ | .template .. => true
  | _ => false

/-- Objects whose `eval` is the global one. -/
def globalObjects : List String := ["window", "globalThis", "global", "self"]

/-- Timers that run a text as code. -/
def stringTimers : List String := ["setTimeout", "setInterval"]

/-- What a plain call of `name` makes at run time. -/
def plainDynamic (name : String) (start : Nat) (args : List Expr) : List Use :=
  if name = "eval" then [.dynamic .eval start "eval() executes arbitrary code"]
  else if name = "Function" then
    [.dynamic .functionConstructor start "Function() builds code from strings"]
  else if stringTimers.contains name then
    if args.head?.any Expr.isText then
      [.dynamic .stringTimer start (name ++ "() with a string argument evaluates code")]
    else []
  else if name = "require" then
    match args with
    | [arg] =>
      if arg.literal?.isNone then
        [.dynamic .computedRequire start "require() with a computed module name"]
      else []
    | _ => []
  else []

/-- A method call of `property` on `object`. -/
def methodUses (object : Expr) (property : String) (start : Nat) : List Use :=
  let receiver := object.dotted?
  let indirect := match receiver with
    | some r =>
      if property = "eval" && globalObjects.contains r then
        [Use.dynamic .indirectEval start (r ++ ".eval() executes code in the global scope")]
      else []
    | none => []
  indirect ++ [.call property receiver .method start]

mutual

/-- What a call does by its callee. -/
def Expr.calleeUses (start : Nat) (args : List Expr) : Expr → List Use
  | .name id => .call id none .plain start :: plainDynamic id start args
  | .member object property => methodUses object property start
  | .index object key =>
    match key.literal? with
    | some property => [.call property object.dotted? .computed start]
    | none => []
  | .sequence items => lastCalleeUses start args items
  | .wrapped _ inner _ => inner.calleeUses start args
  | _ => []

/-- What a call does by the last expression of its callee. -/
def lastCalleeUses (start : Nat) (args : List Expr) : List Expr → List Use
  | [] => []
  | [last] =>
    match last.inner with
    | .name "eval" =>
      [.dynamic .indirectEval start "(0, eval)() executes code in the global scope",
        .call "eval" none .plain start]
    | _ => last.calleeUses start args
  | _ :: items => lastCalleeUses start args items

end

/-- What `new` does by its callee. -/
def constructUses (start : Nat) (callee : Expr) : List Use :=
  match callee.inner with
  | .name id =>
    (if id = "Function" then
      [.dynamic .functionConstructor start "new Function() builds code from strings"] else [])
      ++ [.call id none .construct start]
  | .member object property => [.call property object.dotted? .construct start]
  | _ => []

mutual

/-- The uses in an expression. -/
def Expr.uses : Expr → List Use
  | .name id => [.mention id]
  | .this | .string _ => []
  | .template _ values => exprUses values
  | .member object property =>
    (object.dotted?.map fun path => Use.mention (path ++ "." ++ property)).toList ++ object.uses
  | .index object key => object.uses ++ key.uses
  | .call start callee _ args => callee.calleeUses start args ++ callee.uses ++ exprUses args
  | .construct start callee _ args => constructUses start callee ++ callee.uses ++ exprUses args
  | .load start source options =>
    (if source.literal?.isNone then
      [.dynamic .computedImport start "import() with a computed module name"] else [])
      ++ source.uses ++ exprUses options
  | .sequence items => exprUses items
  | .wrapped _ inner _ => inner.uses
  | .await operand => operand.uses
  | .spread operand => operand.uses
  | .other parts => partUses parts

/-- The uses in some expressions. -/
def exprUses : List Expr → List Use
  | [] => []
  | e :: es => e.uses ++ exprUses es

/-- The uses in a part; what stands in a type is no use. -/
def Part.uses : Part → List Use
  | .expr e => e.uses
  | .types _ => []
  | .declarator _ _ parts init => partUses parts ++ init.uses

/-- The uses in some parts. -/
def partUses : List Part → List Use
  | [] => []
  | p :: ps => p.uses ++ partUses ps

end

/-- The uses in a module. -/
def Module.uses (m : Module) : List Use :=
  m.items.flatMap fun item => partUses item.parts

end Source

/-- The names that a use calls. -/
def Use.calledNames : Use → List String
  | .call callee (some receiver) _ _ => [callee, receiver ++ "." ++ callee]
  | .call callee none _ _ => [callee]
  | _ => []

/-- The call of a use. -/
def Use.callSite? (locate : Nat → Location) : Use → Option CallSite
  | .call callee receiver kind start => some { callee, receiver, kind, location := locate start }
  | _ => none

/-- The name that a use mentions. -/
def Use.mentioned? : Use → Option String
  | .mention name => some name
  | _ => none

/-- The code that a use makes at run time. -/
def Use.dynamicCode? (locate : Nat → Location) : Use → Option DynamicCode
  | .dynamic kind start context => some { kind, location := locate start, context }
  | _ => none

/-- The call graph of some uses. -/
def CallGraph.ofUses (locate : Nat → Location) (uses : List Use) : CallGraph where
  callSites := uses.filterMap (Use.callSite? locate)
  calledNames := NameSet.ofList (uses.flatMap Use.calledNames)
  referencedNames := NameSet.ofList (uses.filterMap Use.mentioned?)
  dynamicCode := uses.filterMap (Use.dynamicCode? locate)

/-- The call graph of a module. -/
def Source.Module.callGraph (locate : Nat → Location) (m : Module) : CallGraph :=
  CallGraph.ofUses locate m.uses

end DependencyUse
