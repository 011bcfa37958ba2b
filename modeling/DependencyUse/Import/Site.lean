/-
# Import sites of a module

The imports of a module are its declarations and the calls that load a module.

| site | recorded |
| --- | --- |
| `import …` and `import n = require('m')` | at the top, up to the first other statement |
| `export … from 'm'`, `export * from 'm'` | at the top level, everywhere |
| `require('m')` | everywhere, with one argument that is a literal |
| `import('m')` | everywhere, with a literal |

Wrappers do not matter, for the callee, for the literal, or around the call.  A
declarator that is initialised with such a call (awaited or not), or with a member
of a `require`, binds its names to what the module exports:

| declarator | names |
| --- | --- |
| `n = require('m')`, `n = await import('m')` | `*`, `n` |
| `{ a, b: c } = require('m')` | `a`, `a` and `b`, `c` |
| `n = require('m').a` | `a`, `n` |

Such a call is recorded once, at the declarator.  Sites are in the order in which
their declaration or their call starts.
-/

import DependencyUse.Import.Basic
import DependencyUse.Source.Tree

namespace DependencyUse

/-- A site at which a module is brought in. -/
structure ImportSite where
  /-- byte offset of the declaration or of the call -/
  start : Nat
  /-- byte offset of what is shown as its place -/
  shown : Nat
  specifier : String
  kind : ImportKind
  names : List BoundName
deriving DecidableEq, Repr, Inhabited

namespace Source

/-- The text of a literal: a string, or a template without substitutions. -/
def Expr.literal? (e : Expr) : Option String :=
  match e.inner with
  | .string value => some value
  | .template text [] => text
  | _ => none

/-- The specifier of a call `require('m')`, given its callee and arguments. -/
def required? (callee : Expr) (args : List Expr) : Option String :=
  match callee.inner, args with
  | .name "require", [arg] => arg.literal?
  | _, _ => none

/-- The pairs of names that a declarator binds to the exports of a module. -/
def Target.names : Target → List BoundName
  | .name id => [BoundName.whole id]
  | .fields pairs => pairs.map fun (key, id) => ⟨key, id⟩
  | .other => []

/-- The pair that a declarator binds to one export of a module. -/
def Target.memberNames (property : String) : Target → List BoundName
  | .name id => [⟨property, id⟩]
  | _ => []

/-- The initialiser of a declarator under its wrappers and one `await`. -/
def Expr.loaded (e : Expr) : Expr :=
  match e.inner with
  | .await operand => operand.inner
  | inner => inner

/-- The site of the call that initialises a declarator, if it loads a module. -/
def boundSite? (start : Nat) (target : Target) (init : Expr) : Option ImportSite :=
  match init.loaded with
  | .call at_ callee _ args =>
    (required? callee args).map fun specifier =>
      { start := at_, shown := start, specifier, kind := .require, names := target.names }
  | .member object property =>
    match object.inner with
    | .call at_ callee _ args =>
      (required? callee args).map fun specifier =>
        { start := at_, shown := start, specifier, kind := .require,
          names := target.memberNames property }
    | _ => none
  | .load at_ source _ =>
    source.literal?.map fun specifier =>
      { start := at_, shown := start, specifier, kind := .dynamic, names := target.names }
  | _ => none

mutual

/-- The loading calls of an expression.  With `bound`, the call that the expression
comes down to is recorded already. -/
def Expr.sites (bound : Bool) : Expr → List ImportSite
  | .name _ | .this | .string _ => []
  | .template _ values => exprSites values
  | .member object _ => object.sites bound
  | .index object key => object.sites false ++ key.sites false
  | .call start callee types args =>
    (if bound then []
      else ((required? callee args).map fun specifier =>
        { start, shown := start, specifier, kind := .require, names := [] }).toList)
      ++ callee.sites false ++ partSites types ++ exprSites args
  | .construct _ callee types args => callee.sites false ++ partSites types ++ exprSites args
  | .load start source options =>
    (if bound then []
      else (source.literal?.map fun specifier =>
        { start, shown := start, specifier, kind := .dynamic, names := [] }).toList)
      ++ source.sites false ++ exprSites options
  | .sequence items => exprSites items
  | .wrapped _ inner types => inner.sites bound ++ partSites types
  | .await operand => operand.sites bound
  | .spread operand => operand.sites false
  | .other parts => partSites parts

/-- The loading calls of some expressions. -/
def exprSites : List Expr → List ImportSite
  | [] => []
  | e :: es => e.sites false ++ exprSites es

/-- The loading calls of a part. -/
def Part.sites : Part → List ImportSite
  | .expr e => e.sites false
  | .types parts => partSites parts
  | .declarator start target parts init =>
    let site := boundSite? start target init
    site.toList ++ partSites parts ++ init.sites site.isSome

/-- The loading calls of some parts. -/
def partSites : List Part → List ImportSite
  | [] => []
  | p :: ps => p.sites ++ partSites ps

end

/-- The pair of an import declaration's name. -/
def ImportName.bound : ImportName → BoundName
  | .named imported localName _ => ⟨imported, localName⟩
  | .default localName => ⟨BoundName.defaultName, localName⟩
  | .whole localName => BoundName.whole localName

/-- The name is imported as a type only. -/
def ImportName.isType : ImportName → Bool
  | .named _ _ typeOnly => typeOnly
  | _ => false

/-- The kind of a declaration that imports some values. -/
def importKind (names : List ImportName) : ImportKind :=
  if names.any fun n => n matches .named .. then .named
  else if names.any fun n => n matches .whole _ then .whole
  else .default

/-- The site of `import names from specifier`.  With no names it is imported for its
effects, with nothing but types it is an import of types. -/
def importSite (start : Nat) (specifier : String) (typeOnly : Bool) (names : List ImportName) :
    ImportSite :=
  let values := names.filter fun n => !n.isType
  let site (kind : ImportKind) (names : List ImportName) : ImportSite :=
    { start, shown := start, specifier, kind, names := names.map ImportName.bound }
  if typeOnly then site .typeOnly names
  else if names.isEmpty then site .sideEffect []
  else if values.isEmpty then site .typeOnly names
  else site (importKind names) values

/-- The site of `export { names } from specifier`. -/
def reexportSite (start : Nat) (specifier : String) (typeOnly : Bool) (names : List ExportName) :
    ImportSite :=
  let kept := names.filter fun n => typeOnly || !n.typeOnly
  let kind : ImportKind :=
    if typeOnly || (kept.isEmpty && !names.isEmpty) then .typeOnly else .reexport
  { start, shown := start, specifier, kind, names := kept.map fun n => ⟨n.source, n.exported⟩ }

/-- The site of a top-level declaration.  Imports count at the `head` of a module
only. -/
def Item.declared (head : Bool) : Item → List ImportSite
  | .importNames start specifier typeOnly names =>
    if head then [importSite start specifier typeOnly names] else []
  | .importRequire start specifier typeOnly name =>
    if head then
      [{ start, shown := start, specifier, kind := if typeOnly then .typeOnly else .require,
         names := [BoundName.whole name] }]
    else []
  | .reexport start specifier typeOnly names => [reexportSite start specifier typeOnly names]
  | .reexportAll start specifier typeOnly name =>
    [{ start, shown := start, specifier, kind := if typeOnly then .typeOnly else .reexportAll,
       names := name.toList.map BoundName.whole }]
  | .importAlias _ | .other _ => []

/-- A statement after which the head of a module goes on. -/
def Item.keepsHead : Item → Bool
  | .other _ => false
  | _ => true

/-- The sites of some statements; `head` while only imports and re-exports stand
before them. -/
def itemSites (head : Bool) : List Item → List ImportSite
  | [] => []
  | item :: items =>
    let head := head && item.keepsHead
    item.declared head ++ partSites item.parts ++ itemSites head items

/-- The import sites of a module, in source order. -/
def Module.importSites (m : Module) : List ImportSite :=
  (itemSites true m.items).mergeSort fun a b => a.start ≤ b.start

end Source

namespace ImportRecord

/-- The record of a site. -/
def ofSite (locate : Nat → Location) (site : ImportSite) : ImportRecord :=
  (ImportRecord.new site.specifier site.kind (locate site.shown)).bindAll site.names

end ImportRecord

/-- The import records of a module. -/
def Source.Module.imports (locate : Nat → Location) (m : Module) : List ImportRecord :=
  m.importSites.map (ImportRecord.ofSite locate)

end DependencyUse
