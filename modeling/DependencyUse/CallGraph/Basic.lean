/-
# Call graphs

The call graph of a file lists its calls, the names that are called, the names that
are mentioned, and the places where code is made or modules are named at run time.

| call | callee | receiver | names called |
| --- | --- | --- | --- |
| `f()` | `f` | | `f` |
| `new C()` | `C` | | `C` |
| `a.b.f()` | `f` | `a.b` | `f`, `a.b.f` |
| `a['f']()` | `f` | `a` | `f`, `a.f` |
| `(…).f()` | `f` | | `f` |

Members of a name are read off the sets by their beginning: `n.a.b` is a member `a`
of `n`.
-/

import DependencyUse.Location
import DependencyUse.NameSet

namespace DependencyUse

/-- The form of a call. -/
inductive CallKind where
  | plain
  | construct
  | method
  /-- `a['f']()` -/
  | computed
deriving DecidableEq, Repr, Inhabited

namespace CallKind

/-- All forms. -/
def all : List CallKind := [.plain, .construct, .method, .computed]

/-- The name of a form in reports. -/
def label : CallKind → String
  | .plain => "plainCall"
  | .construct => "constructorCall"
  | .method => "methodCall"
  | .computed => "computedCall"

/-- The form with a given name. -/
def ofLabel? (label : String) : Option CallKind :=
  all.find? fun kind => kind.label == label

end CallKind

/-- One call. -/
structure CallSite where
  callee : String
  /-- the dotted name before the callee -/
  receiver : Option String
  kind : CallKind
  location : Location
deriving DecidableEq, Repr, Inhabited

/-- `receiver.callee`, or the callee alone. -/
def CallSite.qualifiedName (c : CallSite) : String :=
  match c.receiver with
  | some receiver => receiver ++ "." ++ c.callee
  | none => c.callee

/-- Ways to run code, or to load a module, that only the running program knows. -/
inductive DynamicKind where
  | eval
  | functionConstructor
  | stringTimer
  | indirectEval
  | computedImport
  | computedRequire
deriving DecidableEq, Repr, Inhabited

namespace DynamicKind

/-- All ways. -/
def all : List DynamicKind :=
  [.eval, .functionConstructor, .stringTimer, .indirectEval, .computedImport, .computedRequire]

/-- The name in reports. -/
def label : DynamicKind → String
  | .eval => "eval"
  | .functionConstructor => "functionConstructor"
  | .stringTimer => "stringTimer"
  | .indirectEval => "indirectEval"
  | .computedImport => "computedImport"
  | .computedRequire => "computedRequire"

/-- The way with a given name. -/
def ofLabel? (label : String) : Option DynamicKind :=
  all.find? fun kind => kind.label == label

/-- The name in messages. -/
def text : DynamicKind → String
  | .eval => "eval"
  | .functionConstructor => "Function constructor"
  | .stringTimer => "string timer"
  | .indirectEval => "indirect eval"
  | .computedImport => "computed import"
  | .computedRequire => "computed require"

/-- Which module is loaded cannot be read off the source. -/
def hidesImports : DynamicKind → Bool
  | .computedImport | .computedRequire => true
  | _ => false

end DynamicKind

/-- A place where code is run, or a module loaded, that only the running program
knows. -/
structure DynamicCode where
  kind : DynamicKind
  location : Location
  context : String
deriving DecidableEq, Repr, Inhabited

/-- The calls and mentions of a file. -/
structure CallGraph where
  callSites : List CallSite := []
  calledNames : NameSet := ∅
  referencedNames : NameSet := ∅
  dynamicCode : List DynamicCode := []
deriving DecidableEq, Inhabited

/-- The text up to the first dot. -/
def firstSegment (cs : List Char) : List Char :=
  cs.takeWhile (· ≠ '.')

/-- The members of `name` in a set of dotted names: the segment after `name.` of each
name that starts so, unless it is empty. -/
def NameSet.membersOf (s : NameSet) (name : String) : List String :=
  let head := name ++ "."
  (s.below head).filterMap fun full =>
    let segment := firstSegment (full.toList.drop head.length)
    if segment.isEmpty then none else some (String.ofList segment)

namespace CallGraph

/-- The name itself is called. -/
def isCalled (g : CallGraph) (name : String) : Bool :=
  g.calledNames.contains name

/-- The name is mentioned. -/
def isReferenced (g : CallGraph) (name : String) : Bool :=
  g.referencedNames.contains name

/-- The members called through `name`. -/
def calledMembers (g : CallGraph) (name : String) : List String :=
  g.calledNames.membersOf name

/-- The members mentioned through `name`. -/
def referencedMembers (g : CallGraph) (name : String) : List String :=
  g.referencedNames.membersOf name

/-- The name or one of its members is called. -/
def isInvoked (g : CallGraph) (name : String) : Bool :=
  g.isCalled name || !(g.calledMembers name).isEmpty

/-- The file loads a module whose name it computes. -/
def hasDynamicImports (g : CallGraph) : Bool :=
  g.dynamicCode.any fun d => d.kind.hidesImports

end CallGraph
end DependencyUse
