/-
# Evidence

Evidence for a component is collected piece by piece and added up.  The pieces come
from the imports that name the component and from the chains that end at it, each
held against the call graph of the importing file.

| import of | called | mentioned only |
| --- | --- | --- |
| a name | a named call, the name is used | the name is referenced |
| the module or its default | the module is used, the members are used | the module is used, the members are referenced |
| nothing, by `import()` | a dynamic load | |
| nothing, otherwise | | |

Through a chain, a name counts as the name that the chain says it has in the module,
and a member of a whole module as the name that it asks the chain for.
-/

import DependencyUse.CallGraph.Basic
import DependencyUse.Reexport.Chain
import DependencyUse.Verdict.Basic

namespace DependencyUse

/-- What is known in favour of a component. -/
structure Evidence where
  /-- a named binding is called -/
  namedCall : Bool := false
  /-- a module or its default export is called or mentioned -/
  wholeModuleUse : Bool := false
  /-- `import()` with nothing bound -/
  dynamicLoad : Bool := false
  /-- a name that came through a chain is called -/
  barrelCall : Bool := false
  directImport : Bool := false
  chain : Bool := false
  /-- where the first chain through an `export *` ends -/
  starChain : Option Location := none
  styles : List ImportKind := []
  used : List String := []
  referenced : List String := []
  locations : List Location := []
  /-- the files that gave evidence, by their places in the project -/
  touched : List Nat := []
  warnings : List Warning := []
  /-- warnings that hold only if there is no better evidence -/
  wholeModuleWarnings : List Warning := []
deriving DecidableEq, Repr, Inhabited

namespace Evidence

/-- One piece after the other. -/
def append (a b : Evidence) : Evidence where
  namedCall := a.namedCall || b.namedCall
  wholeModuleUse := a.wholeModuleUse || b.wholeModuleUse
  dynamicLoad := a.dynamicLoad || b.dynamicLoad
  barrelCall := a.barrelCall || b.barrelCall
  directImport := a.directImport || b.directImport
  chain := a.chain || b.chain
  starChain := a.starChain <|> b.starChain
  styles := a.styles ++ b.styles
  used := a.used ++ b.used
  referenced := a.referenced ++ b.referenced
  locations := a.locations ++ b.locations
  touched := a.touched ++ b.touched
  warnings := a.warnings ++ b.warnings
  wholeModuleWarnings := a.wholeModuleWarnings ++ b.wholeModuleWarnings

instance : Append Evidence := ⟨append⟩

/-- All pieces together. -/
def sum (pieces : List Evidence) : Evidence :=
  pieces.foldr (· ++ ·) {}

/-- A record of a file was seen. -/
def saw (fileIndex : Nat) (r : ImportRecord) : Evidence where
  styles := [r.kind]
  locations := [r.location]
  touched := [fileIndex]

/-- The member that a call of the module itself stands for: the last part of a path
inside the component, up to its first dot; otherwise the name of the binding for a
whole module, and `default` for a default. -/
def moduleCallName (c : Component) (r : ImportRecord) (b : BoundName) : String :=
  let inside : Option (List Char) := match c.rest? r.specifier with
    | some ('/' :: rest) => ((Text.splitChars '/' rest).reverse.find? fun part => !part.isEmpty)
    | _ => none
  match inside with
  | some part => String.ofList (part.takeWhile (· ≠ '.'))
  | none => if b.isWhole then b.localName else BoundName.defaultName

/-- The warning that a module is used as a whole. -/
def wholeModuleWarning (r : ImportRecord) (b : BoundName) : Warning :=
  let style := if b.isDefault then "default" else "namespace"
  Warning.at_ .namespaceImport
    ("'" ++ r.specifier ++ "' is used through the " ++ style ++ " binding '" ++ b.localName
      ++ "'; individual members are inferred") r.location

/-- What the call graph says of a binding for a module or its default. -/
def ofWholeModule (c : Component) (g : CallGraph) (r : ImportRecord) (b : BoundName) : Evidence :=
  let calledSelf := g.isCalled b.localName
  let members := g.calledMembers b.localName
  if calledSelf || !members.isEmpty then
    { wholeModuleUse := true
      used := (if calledSelf then [moduleCallName c r b] else []) ++ members
      wholeModuleWarnings := [wholeModuleWarning r b] }
  else if g.isReferenced b.localName then
    { wholeModuleUse := true
      referenced := g.referencedMembers b.localName
      wholeModuleWarnings := [wholeModuleWarning r b] }
  else {}

/-- What the call graph says of a binding for a name of the component. -/
def ofNamed (g : CallGraph) (b : BoundName) : Evidence :=
  if g.isInvoked b.localName then { namedCall := true, used := [b.imported] }
  else if g.isReferenced b.localName then { referenced := [b.imported] }
  else {}

/-- What the call graph says of a binding. -/
def ofBinding (c : Component) (g : CallGraph) (r : ImportRecord) (b : BoundName) : Evidence :=
  if b.isWholeModule then ofWholeModule c g r b else ofNamed g b

/-- An import that binds nothing. -/
def ofUnbound (r : ImportRecord) : Evidence :=
  if r.kind = .dynamic then
    { dynamicLoad := true
      warnings := [Warning.at_ .dynamicImport
        ("'" ++ r.specifier ++ "' is loaded with import(); member usage is not tracked")
        r.location] }
  else
    { warnings := [Warning.at_ .sideEffectImport
        ("'" ++ r.specifier ++ "' is imported for its side effects only") r.location] }

/-- What an import that names the component says. -/
def ofDirect (c : Component) (g : CallGraph) (fileIndex : Nat) (r : ImportRecord) : Evidence :=
  let seen : Evidence := { directImport := true } ++ saw fileIndex r
  if r.isReexport then seen
  else if r.names.isEmpty then seen ++ ofUnbound r
  else seen ++ sum (r.names.map (ofBinding c g r))

/-- The name of a member whose name in the module is `origin`. -/
def memberName (origin member : String) : String :=
  if origin == BoundName.wholeName then member else origin

/-- The members that a chain lets through, by their names in the module. -/
def throughChain (chain : ReexportChain) (members : List String) : List String :=
  members.filterMap fun member => (chain.originName? member).map fun o => memberName o member

/-- What a binding says whose name came through a chain. -/
def ofChainBinding (chain : ReexportChain) (g : CallGraph) (b : BoundName) : Evidence :=
  if b.isWhole then
    let used := throughChain chain (g.calledMembers b.localName)
    { barrelCall := !used.isEmpty, used
      referenced := throughChain chain (g.referencedMembers b.localName) }
  else
    match chain.originName? b.imported with
    | none => {}
    | some origin =>
      if origin = BoundName.wholeName then
        let used := g.calledMembers b.localName
        { barrelCall := !used.isEmpty, used }
      else if g.isInvoked b.localName then { barrelCall := true, used := [origin] }
      else if g.isReferenced b.localName then { referenced := [origin] }
      else {}

/-- What a chain that ends at the component says. -/
def ofChain (g : CallGraph) (fileIndex : Nat) (r : ImportRecord) (chain : ReexportChain) :
    Evidence :=
  let seen : Evidence :=
    { chain := true
      starChain := if chain.throughStar then some chain.origin else none
      warnings := [Warning.at_ .barrelFile
        ("'" ++ chain.specifier ++ "' is reached through re-exports: " ++ chain.describe)
        r.location] }
  saw fileIndex r ++ seen ++ sum (r.names.map (ofChainBinding chain g))

end Evidence
end DependencyUse
