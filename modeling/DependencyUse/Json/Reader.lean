/-
# Reading JSON

Tokens are read one by one by a machine with a stack of the arrays and objects that
are open.  A text is a value if the machine ends with one value and nothing open; at
most 127 arrays and objects may be open at once.

| state | what may come |
| --- | --- |
| `want` | a value |
| `arrayStart` | a value or `]` |
| `objectStart` | a name or the closing brace |
| `fieldName` | a name |
| `fieldColon` | a colon |
| `holds` | a comma or the bracket that closes the innermost, or the end |
-/

import DependencyUse.Json.Token

namespace DependencyUse
namespace Json

/-- An open array or object with what was read of it, last first.  An object waits for
the value of a field. -/
inductive Frame where
  | array (items : List Value)
  | object (fields : List (String × Value)) (name : String)
deriving Inhabited

/-- What the machine has read. -/
inductive Machine where
  | want (stack : List Frame)
  | arrayStart (stack : List Frame)
  | objectStart (stack : List Frame)
  | fieldName (fields : List (String × Value)) (stack : List Frame)
  | fieldColon (fields : List (String × Value)) (name : String) (stack : List Frame)
  | holds (value : Value) (stack : List Frame)
deriving Inhabited

/-- How many arrays and objects may be open at once. -/
def maxDepth : Nat := 127

namespace Machine

/-- A token where a value is wanted. -/
def start (stack : List Frame) : Token → Option Machine
  | .null => some (.holds .null stack)
  | .bool b => some (.holds (.bool b) stack)
  | .number n => some (.holds (.number n) stack)
  | .string s => some (.holds (.string s) stack)
  | .openArray => if stack.length < maxDepth then some (.arrayStart stack) else none
  | .openObject => if stack.length < maxDepth then some (.objectStart stack) else none
  | _ => none

/-- One token. -/
def step : Machine → Token → Option Machine
  | .want stack, t => start stack t
  | .arrayStart stack, .closeArray => some (.holds (.array []) stack)
  | .arrayStart stack, t => start (.array [] :: stack) t
  | .objectStart stack, .closeObject => some (.holds (.object []) stack)
  | .objectStart stack, .string name => some (.fieldColon [] name stack)
  | .fieldName fields stack, .string name => some (.fieldColon fields name stack)
  | .fieldColon fields name stack, .colon => some (.want (.object fields name :: stack))
  | .holds v (.array items :: stack), .comma => some (.want (.array (v :: items) :: stack))
  | .holds v (.array items :: stack), .closeArray =>
    some (.holds (.array (v :: items).reverse) stack)
  | .holds v (.object fields name :: stack), .comma => some (.fieldName ((name, v) :: fields) stack)
  | .holds v (.object fields name :: stack), .closeObject =>
    some (.holds (.object ((name, v) :: fields).reverse) stack)
  | _, _ => none

/-- Some tokens. -/
def run : Machine → List Token → Option Machine
  | m, [] => some m
  | m, t :: ts =>
    match m.step t with
    | some m => run m ts
    | none => none

/-- The value that is read. -/
def value? : Machine → Option Value
  | .holds v [] => some v
  | _ => none

end Machine

/-- The value of some tokens. -/
def Value.ofTokens? (ts : List Token) : Option Value :=
  ((Machine.want []).run ts).bind Machine.value?

/-- Reads a JSON text. -/
def Value.read? (text : String) : Option Value :=
  (tokens text.toList).bind Value.ofTokens?

end Json
end DependencyUse
