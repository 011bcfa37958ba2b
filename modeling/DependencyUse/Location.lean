/-
# Locations

A location names a file, a line, a column and the text of the line.

| part | counted |
| --- | --- |
| line | from 1; a line ends after `\n` and nowhere else |
| column | from 1, in characters |
| snippet | the line without the blanks at its ends, at most 120 characters |

Byte offsets become locations by way of the lines of the text; the line of an offset is
looked up by halving.  An offset past the end stands at the end, and one inside a
character has column 1.
-/

import DependencyUse.Ordered
import DependencyUse.Path
import DependencyUse.Text.Blank

namespace DependencyUse

/-- A place in a source file. -/
structure Location where
  file : Path
  line : Nat
  column : Nat
  snippet : String
deriving DecidableEq, Repr, Inhabited

namespace Location

/-- `file:line:column`. -/
def text (l : Location) : String :=
  l.file.text ++ ":" ++ toString l.line ++ ":" ++ toString l.column

/-- By file, line, column and snippet, in that order. -/
def cmp (a b : Location) : Ordering :=
  (a.file.cmp b.file).then ((compare a.line b.line).then
    ((compare a.column b.column).then (compare a.snippet b.snippet)))

/-- The same place: files are the same if their paths have the same steps. -/
def same (a b : Location) : Bool :=
  a.file.same b.file && a.line == b.line && a.column == b.column && a.snippet == b.snippet

/-- The longest snippet, in characters. -/
def maxSnippet : Nat := 120

end Location

/-- A line of a text, with its line end, and the byte offset at which it starts. -/
structure Line where
  start : Nat
  chars : List Char
deriving DecidableEq, Repr, Inhabited

/-- The lines of a text; there is one more than there are line ends. -/
structure LineIndex where
  lines : Array Line
deriving DecidableEq, Repr, Inhabited

namespace LineIndex

/-- The lines of the characters that start at byte offset `start`. -/
def linesFrom (start : Nat) : List Char → List Line
  | [] => [⟨start, []⟩]
  | c :: cs =>
    if c = '\n' then ⟨start, ['\n']⟩ :: linesFrom (start + 1) cs
    else
      match linesFrom (start + c.utf8Size) cs with
      | [] => [⟨start, [c]⟩]
      | line :: lines => ⟨start, c :: line.chars⟩ :: lines

/-- The lines of a text. -/
def ofText (text : String) : LineIndex :=
  ⟨(linesFrom 0 text.toList).toArray⟩

/-- The number of characters in the first `bytes` bytes, if they end at a character;
all of them if there are fewer bytes. -/
def charsWithin? : List Char → Nat → Option Nat
  | _, 0 => some 0
  | [], _ + 1 => some 0
  | c :: cs, bytes + 1 =>
    if c.utf8Size ≤ bytes + 1 then (charsWithin? cs (bytes + 1 - c.utf8Size)).map (· + 1)
    else none

/-- The place among the lines of the last one that does not start after a byte offset. -/
def lineAt (index : LineIndex) (offset : Nat) : Nat :=
  lastNotAbove (fun line => compare line.start offset) index.lines 0 index.lines.size (by omega)

/-- Line and column of a byte offset. -/
def position (index : LineIndex) (offset : Nat) : Nat × Nat :=
  match index.lines[index.lineAt offset]? with
  | some line =>
    (index.lineAt offset + 1, (charsWithin? line.chars (offset - line.start)).getD 0 + 1)
  | none => (1, 1)

/-- The text of a line as it is shown; line 0 is the first line too. -/
def snippet (index : LineIndex) (line : Nat) : String :=
  match index.lines[line - 1]? with
  | some line => String.ofList ((Text.trimChars line.chars).take Location.maxSnippet)
  | none => ""

/-- The location of a byte offset. -/
def locate (index : LineIndex) (file : Path) (offset : Nat) : Location :=
  let (line, column) := index.position offset
  { file, line, column, snippet := index.snippet line }

end LineIndex
end DependencyUse
