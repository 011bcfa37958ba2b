/-
# Glob patterns

A pattern matches a whole text.

| token | matches |
| --- | --- |
| `?` | any character |
| `*` | any run of characters, slashes too |
| `**` as a whole component | what comes before any later component, or all of the rest |
| `[ab-d]` | one of these characters |
| `[!ab-d]` | a character that is none of these |
| any other | itself |

`**` stands at the start or after a slash, and at the end or before a slash, which
belongs to it.  The bracket that closes a class is not its first character, so `[]]`
holds `]`; a range needs a character on both sides of its dash.  There are no escapes,
and a leading dot is a character like any other.  The case of the letters `a` to `z`
does not matter; for a range it does not matter if both its ends are such letters.
-/

namespace DependencyUse
namespace Glob

/-- A member of a class. -/
inductive Item where
  | single (c : Char)
  | range (low high : Char)
deriving DecidableEq, Repr, Inhabited

/-- A token of a pattern. -/
inductive Token where
  | char (c : Char)
  | any
  | run
  | deep
  | within (items : List Item)
  | except (items : List Item)
deriving DecidableEq, Repr, Inhabited

/-- A compiled pattern and its text. -/
structure Pattern where
  text : String
  tokens : List Token
deriving DecidableEq, Repr, Inhabited

/-- What can be wrong with a pattern. -/
inductive Cause where
  | stars
  | deep
  | range
deriving DecidableEq, Repr, Inhabited

/-- A mistake in a pattern, and the character at which it is. -/
structure Fault where
  position : Nat
  cause : Cause
deriving DecidableEq, Repr, Inhabited

/-- What a mistake consists in. -/
def Cause.message : Cause → String
  | .stars => "wildcards are either regular `*` or recursive `**`"
  | .deep => "recursive wildcards must form a single path component"
  | .range => "invalid range pattern"

/-- The text of a mistake. -/
def Fault.message (f : Fault) : String :=
  "Pattern syntax error near position " ++ toString f.position ++ ": " ++ f.cause.message

/-- The members of a class. -/
def items : List Char → List Item
  | low :: '-' :: high :: cs => .range low high :: items cs
  | c :: cs => .single c :: items cs
  | [] => []

/-- The characters of a class up to the bracket that closes it, and what follows; the
first character never closes it. -/
def classBody : List Char → Option (List Char × List Char)
  | [] => none
  | c :: cs =>
    if cs.contains ']' then
      some (c :: cs.takeWhile (· ≠ ']'), (cs.dropWhile (· ≠ ']')).drop 1)
    else none

/-- A class after its opening bracket, and what follows it. -/
def readClass : List Char → Option (Token × List Char)
  | '!' :: cs => (classBody cs).map fun (body, rest) => (.except (items body), rest)
  | cs => (classBody cs).map fun (body, rest) => (.within (items body), rest)

/-- The token that a pattern starts with, and what follows it; `position` is the number
of characters before, and `before` the last one of them. -/
def readToken (position : Nat) (before : Option Char) (c : Char) (cs : List Char) :
    Except Fault (Token × List Char) :=
  if c = '?' then .ok (.any, cs)
  else if c = '*' then
    let stars := 1 + (cs.takeWhile (· = '*')).length
    let rest := cs.dropWhile (· = '*')
    if stars > 2 then .error ⟨position + 2, .stars⟩
    else if stars = 1 then .ok (.run, rest)
    else if before.any (· ≠ '/') then .error ⟨position - 1, .deep⟩
    else
      match rest with
      | [] => .ok (.deep, [])
      | '/' :: rest => .ok (.deep, rest)
      | _ => .error ⟨position + 2, .deep⟩
  else if c = '[' then
    match readClass cs with
    | some r => .ok r
    | none => .error ⟨position, .range⟩
  else .ok (.char c, cs)

/-- The tokens of a pattern.  Every token takes a character, so there are at most
`fuel` of them when `fuel` characters are left. -/
def readTokens (fuel position : Nat) (before : Option Char) : List Char → Except Fault (List Token)
  | [] => .ok []
  | c :: cs =>
    match fuel with
    | 0 => .ok []
    | fuel + 1 =>
      match readToken position before c cs with
      | .error fault => .error fault
      | .ok (t, rest) =>
        let taken := (c :: cs).take ((c :: cs).length - rest.length)
        (readTokens fuel (position + taken.length) taken.getLast? rest).map (t :: ·)

/-- Compiles a pattern. -/
def compile (text : String) : Except Fault Pattern :=
  (readTokens text.length 0 none text.toList).map fun tokens => { text, tokens }

/-- The same character, but for the case of the letters `a` to `z`. -/
def sameLetter (a b : Char) : Bool :=
  a.toLower == b.toLower

/-- The character stands for a member. -/
def Item.holds (c : Char) : Item → Bool
  | .single x => sameLetter x c
  | .range low high =>
    (low ≤ c && c ≤ high)
      || (low.isAlpha && high.isAlpha && low.toLower ≤ c.toLower && c.toLower ≤ high.toLower)

/-- The character is one of the members. -/
def holds (items : List Item) (c : Char) : Bool :=
  items.any fun item => item.holds c

/-- A token that takes one character accepts it. -/
def Token.accepts (c : Char) : Token → Bool
  | .char x => sameLetter x c
  | .any => true
  | .within items => Glob.holds items c
  | .except items => !Glob.holds items c
  | .run | .deep => false

/-- A list and all that is left of it as characters are taken away. -/
def suffixes : List Char → List (List Char)
  | [] => [[]]
  | c :: cs => (c :: cs) :: suffixes cs

/-- What follows each slash. -/
def afterSlashes : List Char → List (List Char)
  | [] => []
  | c :: cs => if c = '/' then cs :: afterSlashes cs else afterSlashes cs

/-- The tokens match all of the characters. -/
def accepts : List Token → List Char → Bool
  | [], cs => cs.isEmpty
  | .run :: ts, cs => (suffixes cs).any fun rest => accepts ts rest
  | .deep :: ts, cs => ts.isEmpty || (cs :: afterSlashes cs).any fun rest => accepts ts rest
  | _ :: _, [] => false
  | t :: ts, c :: cs => t.accepts c && accepts ts cs

/-- The pattern matches a text. -/
def Pattern.accepts (p : Pattern) (text : String) : Bool :=
  Glob.accepts p.tokens text.toList

end Glob
end DependencyUse
