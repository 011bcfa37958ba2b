/-
# TOML documents

A document is a list of statements, each on a line of its own:

| statement | text | what it does |
| --- | --- | --- |
| pair | `a.b = value` | gives a key of the open table a value |
| header | `[a.b]` | opens a table |
| row | `[[a.b]]` | opens one more table of a list |

The document is the table that its statements make one after the other.  Between the
items of a list there may be line ends and comments, in an inline table only blanks;
at most 80 lists and inline tables may be open at once.
-/

import DependencyUse.Toml.Scalar
import DependencyUse.Toml.Text

namespace DependencyUse
namespace Toml

/-- A statement. -/
inductive Statement where
  | pair (keys : List String) (value : Value)
  | header (keys : List String)
  | row (keys : List String)
deriving Repr, Inhabited

/-- How many lists and inline tables may be open at once. -/
def maxDepth : Nat := 80

/-! ### What stands between -/

/-- The characters without the blanks at their start. -/
def skipSpaces (cs : List Char) : List Char :=
  cs.dropWhile isSpace

/-- The characters without the blanks, line ends and comments at their start; a comment
holds no control characters. -/
def skipGap (inComment : Bool) : List Char → Option (List Char)
  | [] => some []
  | '\r' :: '\n' :: cs => skipGap false cs
  | c :: cs =>
    if c = '\n' then skipGap false cs
    else if inComment then if isControl c then none else skipGap true cs
    else if isSpace c then skipGap false cs
    else if c = '#' then skipGap true cs
    else some (c :: cs)

/-- Nothing but a comment follows on the line. -/
def atLineEnd (cs : List Char) : Bool :=
  match skipSpaces cs with
  | [] | '\n' :: _ | '\r' :: '\n' :: _ | '#' :: _ => true
  | _ => false

/-! ### Keys -/

/-- A character of a key without quotes. -/
def isKeyChar (c : Char) : Bool :=
  c.isAlphanum || c = '-' || c = '_'

/-- One part of a key. -/
def readKey (cs : List Char) : Option (String × List Char) :=
  match cs with
  | '"' :: rest => readLine '"' rest
  | '\'' :: rest => readLine '\'' rest
  | _ =>
    let key := cs.takeWhile isKeyChar
    if key.isEmpty then none else some (String.ofList key, cs.dropWhile isKeyChar)

/-- The parts of a key between dots, and what follows the blanks after them. -/
def readKeys : Nat → List Char → Option (List String × List Char)
  | 0, _ => none
  | n + 1, cs =>
    match readKey (skipSpaces cs) with
    | none => none
    | some (key, rest) =>
      match skipSpaces rest with
      | '.' :: rest => (readKeys n rest).map fun (keys, after) => (key :: keys, after)
      | rest => some ([key], rest)

/-- A key, and what follows it. -/
def keys (cs : List Char) : Option (List String × List Char) :=
  readKeys (cs.length + 1) cs

/-! ### Values -/

/-- The items of a list up to its closing bracket; there may be a comma after the last. -/
def readItems (item : List Char → Option (Value × List Char)) :
    Nat → List Char → Option (List Value × List Char)
  | 0, _ => none
  | n + 1, cs =>
    match skipGap false cs with
    | none => none
    | some (']' :: rest) => some ([], rest)
    | some rest =>
      match item rest with
      | none => none
      | some (v, rest) =>
        match skipGap false rest with
        | some (',' :: rest) => (readItems item n rest).map fun (vs, after) => (v :: vs, after)
        | some (']' :: rest) => some ([v], rest)
        | _ => none

/-- A key with its value. -/
def readPair (value : List Char → Option (Value × List Char)) (cs : List Char) :
    Option (List String × Value × List Char) :=
  match keys cs with
  | some (ks, '=' :: rest) => (value (skipSpaces rest)).map fun (v, after) => (ks, v, after)
  | _ => none

/-- The pairs of an inline table up to its closing brace, added to a table. -/
def readPairs (value : List Char → Option (Value × List Char)) :
    Nat → Table → List Char → Option (Table × List Char)
  | 0, _, _ => none
  | n + 1, t, cs =>
    match readPair value cs with
    | none => none
    | some (ks, v, rest) =>
      match t.insertPair ks v with
      | none => none
      | some t =>
        match skipSpaces rest with
        | ',' :: rest => readPairs value n t rest
        | '\x7d' :: rest => some (t, rest)
        | _ => none

/-- An inline table after its opening brace. -/
def readInline (value : List Char → Option (Value × List Char)) (cs : List Char) :
    Option (Value × List Char) :=
  match skipSpaces cs with
  | '\x7d' :: rest => some (.table .inline [], rest)
  | rest =>
    (readPairs value (rest.length + 1) (Table.empty .stated) rest).map fun (t, after) =>
      (.table .inline t.entries, after)

/-- A value that opens at most `depth` lists and inline tables within each other. -/
def readValue : Nat → List Char → Option (Value × List Char)
  | _, '"' :: rest => (readQuoted '"' rest).map fun (s, after) => (.string s, after)
  | _, '\'' :: rest => (readQuoted '\'' rest).map fun (s, after) => (.string s, after)
  | depth + 1, '[' :: rest =>
    (readItems (readValue depth) (rest.length + 1) rest).map fun (vs, after) => (.list vs, after)
  | depth + 1, '\x7b' :: rest => readInline (readValue depth) rest
  | _, cs => readScalar cs

/-! ### Statements -/

/-- A statement at the start, and what follows it. -/
def readStatement (cs : List Char) : Option (Statement × List Char) :=
  match cs with
  | '[' :: '[' :: rest =>
    match keys rest with
    | some (ks, ']' :: ']' :: after) => some (.row ks, after)
    | _ => none
  | '[' :: rest =>
    match keys rest with
    | some (ks, ']' :: after) => some (.header ks, after)
    | _ => none
  | _ => (readPair (readValue maxDepth) cs).map fun (ks, v, after) => (.pair ks v, after)

/-- The statements of a document. -/
def readStatements : Nat → List Char → Option (List Statement)
  | 0, _ => none
  | n + 1, cs =>
    match skipGap false cs with
    | none => none
    | some [] => some []
    | some rest =>
      match readStatement rest with
      | none => none
      | some (s, after) =>
        if atLineEnd after then (readStatements n after).map (s :: ·) else none

/-- A document as far as it was read: its table, and the keys of the open one. -/
structure Draft where
  table : Table := .empty .stated
  place : List String := []
deriving Inhabited

/-- Carries out a statement. -/
def Draft.step (d : Draft) : Statement → Option Draft
  | .pair ks v => (d.table.within false d.place (Table.insertPair ks v)).map ({ d with table := · })
  | .header ks => (d.table.insertHeader ks).map fun table => { table, place := ks }
  | .row ks => (d.table.insertRow ks).map fun table => { table, place := ks }

/-- The table of a document; a byte-order mark at its start is passed over. -/
def Table.read? (text : String) : Option Table :=
  let cs := match text.toList with
    | '\ufeff' :: cs => cs
    | cs => cs
  (readStatements (cs.length + 1) cs).bind fun statements =>
    (statements.foldlM Draft.step {}).map Draft.table

end Toml
end DependencyUse
