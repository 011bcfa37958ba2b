/-
# Components

A component is a declared dependency with what is known of its vulnerabilities.  A
specifier names a component if it is the component's name, or the name followed by a
slash and a path inside it:

| name | names it | does not |
| --- | --- | --- |
| `lodash` | `lodash`, `lodash/merge` | `lodash-es`, `./lodash` |
| `@babel/core` | `@babel/core`, `@babel/core/lib` | `@babel`, `@babel/core-js` |

No specifier names a component without a name.
-/

import DependencyUse.NameSet

namespace DependencyUse

/-- A known vulnerability and the functions it affects. -/
structure Vulnerability where
  id : String
  severity : Option String := none
  affectedFunctions : List String := []
deriving DecidableEq, Repr, Inhabited

/-- A declared dependency. -/
structure Component where
  name : String
  version : String := ""
  ecosystem : Option String := none
  vulnerabilities : List Vulnerability := []
deriving DecidableEq, Repr, Inhabited

/-- What follows `head` in a list that starts with it. -/
def after? : List Char → List Char → Option (List Char)
  | [], cs => some cs
  | _ :: _, [] => none
  | h :: hs, c :: cs => if h = c then after? hs cs else none

namespace Component

/-- The functions that some vulnerability affects. -/
def affectedFunctions (c : Component) : NameSet :=
  NameSet.ofList (c.vulnerabilities.flatMap Vulnerability.affectedFunctions)

/-- What a specifier says after the name of the component. -/
def rest? (c : Component) (specifier : String) : Option (List Char) :=
  after? c.name.toList specifier.toList

/-- The specifier names the component. -/
def matchesModule (c : Component) (specifier : String) : Bool :=
  if c.name.isEmpty then false
  else
    match c.rest? specifier with
    | some [] => true
    | some (ch :: _) => ch == '/'
    | none => false

end Component
end DependencyUse
