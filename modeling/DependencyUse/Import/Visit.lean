/-
# Finding import sites by a visit

A visit goes over the tree of a module once and keeps what it has found.  At a declarator
it records the call that initialises it, with the names that are bound, and notes where
that call starts.  The call is met again further down; a call that starts where one is
noted is passed over.

| met | recorded | noted |
| --- | --- | --- |
| a declaration that counts | its site | |
| a declarator initialised with a loading call | the call, with its names | where the call starts |
| a loading call | the call, unless one is noted where it starts | |

Only offsets are noted, and calls can share their start: all three of `require('a').b().c()`
start together.  `Module.importSites` says the same without notes, by the place of a call
in the tree.
-/

import DependencyUse.Import.Site

namespace DependencyUse

/-- What a visit has found so far. -/
structure Visit where
  sites : List ImportSite := []
  /-- where the calls start that are recorded with their names -/
  handled : List Nat := []
deriving DecidableEq, Repr, Inhabited

namespace Visit

/-- Sites of declarations are recorded. -/
def record (sites : List ImportSite) (v : Visit) : Visit :=
  { v with sites := v.sites ++ sites }

/-- The call that initialises a declarator is recorded and noted, if it loads a module. -/
def bind (site : Option ImportSite) (v : Visit) : Visit :=
  match site with
  | none => v
  | some site => { sites := v.sites ++ [site], handled := site.start :: v.handled }

/-- A call is met at `start`; it loads what `specifier` says, if that is known. -/
def meet (start : Nat) (kind : ImportKind) (specifier : Option String) (v : Visit) : Visit :=
  if v.handled.contains start then v
  else
    match specifier with
    | none => v
    | some specifier =>
      { v with sites := v.sites ++ [{ start, shown := start, specifier, kind, names := [] }] }

end Visit

namespace Source

mutual

/-- Visits an expression. -/
def Expr.visit : Expr → Visit → Visit
  | .name _, v | .this, v | .string _, v => v
  | .template _ values, v => visitExprs values v
  | .member object _, v => object.visit v
  | .index object key, v => key.visit (object.visit v)
  | .call start callee types args, v =>
    visitExprs args (visitParts types (callee.visit
      (v.meet start .require (required? callee args))))
  | .construct _ callee types args, v => visitExprs args (visitParts types (callee.visit v))
  | .load start source options, v =>
    visitExprs options (source.visit (v.meet start .dynamic source.literal?))
  | .sequence items, v => visitExprs items v
  | .wrapped _ inner types, v => visitParts types (inner.visit v)
  | .await operand, v | .spread operand, v => operand.visit v
  | .other parts, v => visitParts parts v

/-- Visits some expressions. -/
def visitExprs : List Expr → Visit → Visit
  | [], v => v
  | e :: es, v => visitExprs es (e.visit v)

/-- Visits a part. -/
def Part.visit : Part → Visit → Visit
  | .expr e, v => e.visit v
  | .types parts, v => visitParts parts v
  | .declarator start target parts init, v =>
    init.visit (visitParts parts (v.bind (boundSite? start target init)))

/-- Visits some parts. -/
def visitParts : List Part → Visit → Visit
  | [], v => v
  | p :: ps, v => visitParts ps (p.visit v)

end

/-- Visits some statements; `head` while only imports and re-exports stand before them. -/
def visitItems (head : Bool) : List Item → Visit → Visit
  | [], v => v
  | item :: items, v =>
    let head := head && item.keepsHead
    visitItems head items (visitParts item.parts (v.record (item.declared head)))

/-- The sites that a visit of a module finds, in source order. -/
def Module.visitedSites (m : Module) : List ImportSite :=
  (visitItems true m.items {}).sites.mergeSort fun a b => a.start ≤ b.start

/-- The import records of a visit. -/
def Module.visitedImports (locate : Nat → Location) (m : Module) : List ImportRecord :=
  m.visitedSites.map (ImportRecord.ofSite locate)

end Source
end DependencyUse
