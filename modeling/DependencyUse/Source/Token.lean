/-
# Tokens of a module text

A text is read one token at a time, each token with the byte offset at which it
starts and the offset at which it stops.  Some characters read differently by
where they stand, so a token keeps no decision that only its reader can make:

| spelling | read as | read again as |
| --- | --- | --- |
| `>` | the sign `>` alone | `>=`, `>>`, `>>>`, `>>=`, `>>>=` after an operand |
| `<<` | a shift | `<` before type arguments |
| `/`, `/=` | a division | a regular expression where a value starts |
| `}` | a closing brace | the rest of a template after a substitution |

Names and keywords are one kind, `word`: which words are reserved is a matter of
the grammar.
-/

namespace DependencyUse
namespace Source

/-- The value of a number literal as written: `mantissa * 10 ^ exponent`. -/
structure Numeral where
  mantissa : Nat
  exponent : Int
deriving DecidableEq, Repr, Inhabited

/-- What a token is. -/
inductive Kind where
  /-- the end of the text -/
  | eof
  /-- characters that are no token -/
  | bad
  /-- a name or keyword; `escaped` when it was spelled with a `\u` escape -/
  | word (text : String) (escaped : Bool)
  /-- a private name, without its `#` -/
  | hidden (text : String)
  | number (value : Numeral)
  /-- a number with the suffix `n` -/
  | bigint (value : Nat)
  | string (value : String)
  /-- a piece of a template up to the next substitution, or to the closing
  backquote when `last`; `none` when it holds an escape without a value -/
  | template (cooked : Option String) (last : Bool)
  /-- an operator or a bracket -/
  | sign (text : String)
deriving DecidableEq, Repr, Inhabited

/-- A token and where it stands. -/
structure Token where
  kind : Kind
  /-- byte offset of its first character -/
  start : Nat
  /-- byte offset after its last character -/
  stop : Nat
  /-- a line ends between the token before and this one -/
  newline : Bool
deriving Repr, Inhabited

/-- The number of bytes `cs` takes in UTF-8. -/
def byteLength (cs : List Char) : Nat :=
  cs.foldl (fun n c => n + c.utf8Size) 0

/-- A character that ends a line. -/
def isLineEnd (c : Char) : Bool :=
  c == '\n' || c == '\r' || c == '\u2028' || c == '\u2029'

/-- A blank between tokens that ends no line. -/
def isGapBlank (c : Char) : Bool :=
  c == ' ' || c == '\t' || c == '\x0b' || c == '\x0c' || c == '\x85' || c == '\xa0' ||
  c == '\u1680' || ('\u2000' ≤ c && c ≤ '\u200b') || c == '\u202f' || c == '\u205f' ||
  c == '\u3000' || c == '\ufeff'

/-- The value of a hexadecimal digit. -/
def hexDigit? (c : Char) : Option Nat :=
  if '0' ≤ c && c ≤ '9' then some (c.toNat - '0'.toNat)
  else if 'a' ≤ c && c ≤ 'f' then some (c.toNat - 'a'.toNat + 10)
  else if 'A' ≤ c && c ≤ 'F' then some (c.toNat - 'A'.toNat + 10)
  else none

end Source
end DependencyUse
