/-
# TOML texts

There are four ways to write a text:

| written in | escapes | line ends |
| --- | --- | --- |
| `"` | yes | no |
| `'` | no | no |
| `"""` | yes | yes |
| `'''` | no | yes |

A line end right after the three quotes is left out, and so are a backslash at the end
of a line and all blanks and line ends after it.  Up to two quotes may stand before
the three that close.  Control characters other than a tab never stand for themselves,
and a return stands only before a line feed.

A text is read character by character; `Mode` says what the next one belongs to.
-/

import DependencyUse.Json.Token

namespace DependencyUse
namespace Toml

/-- A control character other than a tab. -/
def isControl (c : Char) : Bool :=
  (c.toNat < 32 && c != '\t') || c.toNat == 127

/-- A blank within a line. -/
def isSpace (c : Char) : Bool :=
  c = ' ' || c = '\t'

/-- How a text is written. -/
structure Quoting where
  quote : Char
  /-- between three quotes -/
  tripled : Bool
deriving DecidableEq, Repr, Inhabited

/-- The text has escapes. -/
def Quoting.escapes (q : Quoting) : Bool := q.quote = '"'

/-- What the next character of a text belongs to. -/
inductive Mode where
  | plain
  /-- a return that waits for its line feed -/
  | return
  /-- a run of so many quotes -/
  | quotes (count : Nat)
  | escape
  /-- the code of a character, with so many digits to come -/
  | code (left value : Nat)
  /-- what is left out after a backslash; a line end may still have to come -/
  | gap (ended : Bool)
  | gapReturn
deriving DecidableEq, Repr, Inhabited

/-- What one character does; the characters of the text are kept last first. -/
inductive Next where
  | go (mode : Mode) (out : List Char)
  /-- the character closes the text -/
  | close (out : List Char)
  /-- the text was closed before the character -/
  | closed (out : List Char)
  | fail
deriving Repr, Inhabited

/-- The character of a short escape. -/
def shortEscape? : Char → Option Char
  | '"' => some '"'
  | '\\' => some '\\'
  | 'b' => some (Char.ofNat 8)
  | 'f' => some (Char.ofNat 12)
  | 'n' => some '\n'
  | 'r' => some '\r'
  | 't' => some '\t'
  | _ => none

/-- A character that stands for itself, or opens something. -/
def plainNext (q : Quoting) (out : List Char) (c : Char) : Next :=
  if c = q.quote then if q.tripled then .go (.quotes 1) out else .close out
  else if c = '\\' && q.escapes then .go .escape out
  else if c = '\n' && q.tripled then .go .plain (c :: out)
  else if c = '\r' && q.tripled then .go .return (c :: out)
  else if isControl c then .fail
  else .go .plain (c :: out)

/-- A character of what is left out after a backslash. -/
def gapNext (q : Quoting) (ended : Bool) (out : List Char) (c : Char) : Next :=
  if isSpace c then .go (.gap ended) out
  else if c = '\n' then .go (.gap true) out
  else if c = '\r' then .go .gapReturn out
  else if ended then plainNext q out c
  else .fail

/-- One character of a text. -/
def Mode.next (q : Quoting) (out : List Char) (c : Char) : Mode → Next
  | .plain => plainNext q out c
  | .return => if c = '\n' then .go .plain (c :: out) else .fail
  | .quotes n =>
    if c = q.quote then
      if n = 4 then .close (q.quote :: q.quote :: out) else .go (.quotes (n + 1)) out
    else if n < 3 then plainNext q (List.replicate n q.quote ++ out) c
    else .closed (List.replicate (n - 3) q.quote ++ out)
  | .escape =>
    if c = 'u' then .go (.code 4 0) out
    else if c = 'U' then .go (.code 8 0) out
    else
      match shortEscape? c with
      | some x => .go .plain (x :: out)
      | none => if q.tripled then gapNext q false out c else .fail
  | .code left value =>
    match Json.hexValue? c with
    | none => .fail
    | some d =>
      let value := value * 16 + d
      if left > 1 then .go (.code (left - 1) value) out
      else if value.isValidChar then .go .plain (Char.ofNat value :: out)
      else .fail
  | .gap ended => gapNext q ended out c
  | .gapReturn => if c = '\n' then .go (.gap true) out else .fail

/-- The rest of a text, and what follows it. -/
def readText (q : Quoting) (mode : Mode) (out : List Char) : List Char → Option (String × List Char)
  | [] =>
    match mode with
    | .quotes n =>
      if n < 3 then none
      else some (String.ofList (List.replicate (n - 3) q.quote ++ out).reverse, [])
    | _ => none
  | c :: cs =>
    match mode.next q out c with
    | .go mode out => readText q mode out cs
    | .close out => some (String.ofList out.reverse, cs)
    | .closed out => some (String.ofList out.reverse, c :: cs)
    | .fail => none

/-- The characters without a line end at their start. -/
def dropLineEnd : List Char → List Char
  | '\n' :: cs => cs
  | '\r' :: '\n' :: cs => cs
  | cs => cs

/-- A text on one line after its first quote. -/
def readLine (quote : Char) (cs : List Char) : Option (String × List Char) :=
  readText ⟨quote, false⟩ .plain [] cs

/-- A text after its first quote, with one quote or three of them. -/
def readQuoted (quote : Char) (cs : List Char) : Option (String × List Char) :=
  match cs with
  | a :: b :: rest =>
    if a = quote && b = quote then readText ⟨quote, true⟩ .plain [] (dropLineEnd rest)
    else readLine quote cs
  | _ => readLine quote cs

end Toml
end DependencyUse
