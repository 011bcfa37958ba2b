/-
# Blanks

The characters of the Unicode property `White_Space`, and texts without the blanks
at their ends.

| range | characters |
| --- | --- |
| `0009`–`000D`, `0020` | tab, line feed, vertical tab, form feed, return, space |
| `0085`, `00A0` | next line, no-break space |
| `1680`, `2000`–`200A` | Ogham space, quads and spaces by width |
| `2028`, `2029` | line and paragraph separator |
| `202F`, `205F`, `3000` | narrow no-break, mathematical and ideographic space |

A byte-order mark is no blank.
-/

namespace DependencyUse
namespace Text

/-- A character of the property `White_Space`. -/
def isBlank (c : Char) : Bool :=
  let n := c.toNat
  (0x09 ≤ n && n ≤ 0x0D) || n == 0x20 || n == 0x85 || n == 0xA0 || n == 0x1680
    || (0x2000 ≤ n && n ≤ 0x200A) || n == 0x2028 || n == 0x2029 || n == 0x202F
    || n == 0x205F || n == 0x3000

/-- The characters without those of a class at the end. -/
def dropEndWhile (p : Char → Bool) (cs : List Char) : List Char :=
  (cs.reverse.dropWhile p).reverse

/-- The characters between the blanks at both ends. -/
def trimChars (cs : List Char) : List Char :=
  dropEndWhile isBlank (cs.dropWhile isBlank)

/-- The text between the blanks at both ends. -/
def trim (s : String) : String :=
  String.ofList (trimChars s.toList)

/-- The pieces between the occurrences of `sep`; there is always one more piece than
there are separators. -/
def splitChars (sep : Char) : List Char → List (List Char)
  | [] => [[]]
  | c :: cs =>
    if c = sep then [] :: splitChars sep cs
    else
      match splitChars sep cs with
      | [] => [[c]]
      | piece :: pieces => (c :: piece) :: pieces

/-- `splitChars` on texts. -/
def split (sep : Char) (s : String) : List String :=
  (splitChars sep s.toList).map String.ofList

/-- The characters without one return at their end. -/
def dropReturn (cs : List Char) : List Char :=
  if cs.getLast? = some '\r' then cs.dropLast else cs

/-- The lines of a text.  A line feed ends a line and takes one return before it
along; after the last line feed there is a line only if a character follows. -/
def lines (s : String) : List String :=
  let pieces := splitChars '\n' s.toList
  let closed := pieces.dropLast.map dropReturn
  let rest := pieces.getLast?.toList.filter fun piece => !piece.isEmpty
  (closed ++ rest).map String.ofList

end Text
end DependencyUse
