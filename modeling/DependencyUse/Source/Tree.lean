/-
# Syntax trees of modules

The tree of a module keeps what loading a module and calling a function look
like, and of everything else only the order of its parts:

| kept as itself | kept as its parts |
| --- | --- |
| names, `this`, strings, templates | operators, literals, private members |
| `a.b`, `a[k]`, `f(x)`, `new C(x)`, `import(x)` | optional chains, functions, classes, markup |
| `(a, b)`, `await a`, `...a` | statements, patterns, namespaces, enums |
| parentheses and type wrappers | decorators |
| declarators with an initialiser | declarators without one |

A type position is a part of its own kind, because a name in it is no use of that
name; what stands in it are only the expressions that a type can hold (computed
keys, import options, parameter defaults).

Offsets are byte offsets into the text.  A call starts where its callee starts,
`new` and `import(…)` start at their keyword.
-/

namespace DependencyUse
namespace Source

/-- What a declarator binds: one name, the fields of an object pattern that bind a
name directly (with the key they take it from), or something else. -/
inductive Target where
  | name (id : String)
  | fields (fields : List (String × String))
  | other
deriving DecidableEq, Repr, Inhabited

/-- A form around an expression that has the value of the expression. -/
inductive Wrapper where
  /-- `(e)` -/
  | parentheses
  /-- `e as T` -/
  | asType
  /-- `e satisfies T` -/
  | satisfies
  /-- `e!` -/
  | nonNull
  /-- `<T>e` -/
  | assertion
  /-- `e<T>` -/
  | instantiation
deriving DecidableEq, Repr, Inhabited

mutual
/-- An expression. -/
inductive Expr where
  /-- a name that refers to a value -/
  | name (id : String)
  | this
  | string (value : String)
  /-- a template; `text` is its value when it has no substitution -/
  | template (text : Option String) (values : List Expr)
  /-- `object.property` -/
  | member (object : Expr) (property : String)
  /-- `object[key]` -/
  | index (object key : Expr)
  /-- `callee<types>(args)` -/
  | call (start : Nat) (callee : Expr) (types : List Part) (args : List Expr)
  /-- `new callee<types>(args)` -/
  | construct (start : Nat) (callee : Expr) (types : List Part) (args : List Expr)
  /-- `import(source, options)` -/
  | load (start : Nat) (source : Expr) (options : List Expr)
  /-- `a, b, c` -/
  | sequence (items : List Expr)
  | wrapped (wrapper : Wrapper) (inner : Expr) (types : List Part)
  | await (operand : Expr)
  /-- `...operand` as an argument -/
  | spread (operand : Expr)
  /-- every other form -/
  | other (parts : List Part)

/-- A piece of a statement or of a compound expression, in source order. -/
inductive Part where
  | expr (expr : Expr)
  /-- a type position and the expressions in it -/
  | types (parts : List Part)
  /-- `pattern = init` in a declaration; `parts` are the pieces of the pattern -/
  | declarator (start : Nat) (target : Target) (parts : List Part) (init : Expr)
end

instance : Inhabited Expr := ⟨.this⟩

/-- The expression under all wrappers. -/
def Expr.inner : Expr → Expr
  | .wrapped _ e _ => e.inner
  | e => e

/-- A name bound by an import declaration. -/
inductive ImportName where
  /-- `{ imported as localName }`, `typeOnly` with an inline `type` -/
  | named (imported localName : String) (typeOnly : Bool)
  | default (localName : String)
  /-- `* as localName` -/
  | whole (localName : String)
deriving DecidableEq, Repr, Inhabited

/-- A name forwarded by `export { source as exported } from`. -/
structure ExportName where
  source : String
  exported : String
  typeOnly : Bool
deriving DecidableEq, Repr, Inhabited

/-- A top-level statement. -/
inductive Item where
  /-- `import names from specifier` -/
  | importNames (start : Nat) (specifier : String) (typeOnly : Bool) (names : List ImportName)
  /-- `import name = require(specifier)` -/
  | importRequire (start : Nat) (specifier : String) (typeOnly : Bool) (name : String)
  /-- `import name = root.more` -/
  | importAlias (root : String)
  /-- `export { names } from specifier` -/
  | reexport (start : Nat) (specifier : String) (typeOnly : Bool) (names : List ExportName)
  /-- `export * from specifier`, `export * as name from specifier` -/
  | reexportAll (start : Nat) (specifier : String) (typeOnly : Bool) (name : Option String)
  | other (parts : List Part)

instance : Inhabited Item := ⟨.other []⟩

/-- The parts of a statement that stands inside another one. -/
def Item.parts : Item → List Part
  | .importAlias root => [.expr (.name root)]
  | .other parts => parts
  | _ => []

/-- A module without its directives. -/
structure Module where
  items : List Item
deriving Inhabited

end Source
end DependencyUse
