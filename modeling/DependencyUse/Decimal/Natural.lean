/-
# Natural numbers as texts

A natural number is written in the digits `0` to `9`, of which there is at least one,
and may have a plus sign before them.  Leading zeros do not matter, and nothing else
may stand in the text.
-/

namespace DependencyUse
namespace Decimal

/-- The characters without one plus sign at their start. -/
def dropPlus : List Char → List Char
  | '+' :: cs => cs
  | cs => cs

/-- The value of decimal digits. -/
def digitsValue (digits : List Char) : Nat :=
  digits.foldl (fun n c => n * 10 + (c.toNat - 48)) 0

/-- The natural number below `limit` that a text says. -/
def natural? (limit : Nat) (text : String) : Option Nat :=
  let digits := dropPlus text.toList
  if digits.isEmpty || !digits.all Char.isDigit then none
  else if digitsValue digits < limit then some (digitsValue digits)
  else none

/-- The natural number of 64 bits that a text says. -/
def word? (text : String) : Option Nat :=
  natural? (Nat.pow 2 64) text

end Decimal
end DependencyUse
