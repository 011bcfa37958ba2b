/-
# Writing JSON

A value has one sequence of tokens.  The compact text is the tokens without blanks;
the indented text puts each item and each field on a line of its own, two blanks
deeper than what it stands in, and a blank after a colon.  An empty array or object
stays on one line.
-/

import DependencyUse.Json.Token

namespace DependencyUse
namespace Json

mutual

/-- The tokens of a value. -/
def Value.tokens : Value → List Token
  | .null => [.null]
  | .bool b => [.bool b]
  | .number n => [.number n]
  | .string s => [.string s]
  | .array items => .openArray :: itemTokens items ++ [.closeArray]
  | .object fields => .openObject :: fieldTokens fields ++ [.closeObject]

/-- The tokens of the items of an array. -/
def itemTokens : List Value → List Token
  | [] => []
  | [v] => v.tokens
  | v :: vs => v.tokens ++ .comma :: itemTokens vs

/-- The tokens of the fields of an object. -/
def fieldTokens : List (String × Value) → List Token
  | [] => []
  | [(name, v)] => .string name :: .colon :: v.tokens
  | (name, v) :: fs => .string name :: .colon :: v.tokens ++ .comma :: fieldTokens fs

end

/-- The text without blanks. -/
def Value.compact (v : Value) : String :=
  String.join (v.tokens.map Token.text)

/-- A line end and the blanks of a depth. -/
def lineBreak (depth : Nat) : String :=
  "\n" ++ String.ofList (List.replicate (2 * depth) ' ')

mutual

/-- The pieces of the indented text of a value. -/
def Value.pieces (depth : Nat) : Value → List String
  | .array [] => ["[]"]
  | .array (v :: vs) => "[" :: itemPieces (depth + 1) (v :: vs) ++ [lineBreak depth, "]"]
  | .object [] => ["\x7b\x7d"]
  | .object (f :: fs) => "\x7b" :: fieldPieces (depth + 1) (f :: fs) ++ [lineBreak depth, "\x7d"]
  | .null => [Token.null.text]
  | .bool b => [(Token.bool b).text]
  | .number n => [(Token.number n).text]
  | .string s => [(Token.string s).text]

/-- The pieces of the items of an array, each on its line. -/
def itemPieces (depth : Nat) : List Value → List String
  | [] => []
  | [v] => lineBreak depth :: v.pieces depth
  | v :: vs => lineBreak depth :: v.pieces depth ++ "," :: itemPieces depth vs

/-- The pieces of the fields of an object, each on its line. -/
def fieldPieces (depth : Nat) : List (String × Value) → List String
  | [] => []
  | [(name, v)] => lineBreak depth :: quoted name :: ": " :: v.pieces depth
  | (name, v) :: fs =>
    lineBreak depth :: quoted name :: ": " :: v.pieces depth ++ "," :: fieldPieces depth fs

end

/-- The text with indented lines. -/
def Value.pretty (v : Value) : String :=
  String.join (v.pieces 0)

end Json
end DependencyUse
