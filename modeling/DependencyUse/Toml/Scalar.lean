/-
# TOML scalars

A scalar is a run of characters up to a blank, a line end or one of `, ] } # = " ' [ {`;
between a date and a time there may be one blank.

| scalar | text |
| --- | --- |
| boolean | `true`, `false` |
| integer | digits with an optional sign, or `0x`, `0o`, `0b` and digits |
| float | a fraction or an exponent after the digits; `inf`, `nan` |
| moment | a date, a time, or both, then with an optional offset |

An underscore stands only between two digits, and only a zero alone starts with zero.
An integer has 128 bits, with or without a sign, and a float is not beyond the largest
double.
-/

import DependencyUse.Json.Token
import DependencyUse.Text.Blank
import DependencyUse.Toml.Value

namespace DependencyUse
namespace Toml

/-! ### Numbers -/

/-- Digits without the underscores between them. -/
def plainDigits? (isDigit : Char → Bool) (cs : List Char) : Option (List Char) :=
  let pieces := Text.splitChars '_' cs
  if pieces.all fun piece => !piece.isEmpty && piece.all isDigit then some pieces.flatten else none

/-- Decimal digits of which the first is a zero only if it is alone. -/
def wholeDigits? (cs : List Char) : Option (List Char) :=
  (plainDigits? Char.isDigit cs).filter fun digits =>
    digits.length == 1 || digits.head? != some '0'

/-- The value of digits to a base. -/
def digitsValue (base : Nat) (digits : List Char) : Nat :=
  digits.foldl (fun n c => n * base + (Json.hexValue? c).getD 0) 0

/-- A digit to a base. -/
def isDigitOf (base : Nat) (c : Char) : Bool :=
  match Json.hexValue? c with
  | some d => d < base
  | none => false

/-- A sign and what it stands before. -/
def splitSign : List Char → Bool × List Char
  | '-' :: cs => (true, cs)
  | '+' :: cs => (false, cs)
  | cs => (false, cs)

/-- The integer that a text says, of any size. -/
def anyInteger? : List Char → Option Int
  | '0' :: 'x' :: cs => (plainDigits? (isDigitOf 16) cs).map fun ds => digitsValue 16 ds
  | '0' :: 'o' :: cs => (plainDigits? (isDigitOf 8) cs).map fun ds => digitsValue 8 ds
  | '0' :: 'b' :: cs => (plainDigits? (isDigitOf 2) cs).map fun ds => digitsValue 2 ds
  | cs =>
    let (negative, digits) := splitSign cs
    (wholeDigits? digits).map fun ds =>
      let n : Int := digitsValue 10 ds
      if negative then -n else n

/-- The integer that a text says, of 128 bits. -/
def integer? (cs : List Char) : Option Int :=
  (anyInteger? cs).filter fun i => -(Nat.pow 2 127 : Int) ≤ i && i < (Nat.pow 2 128 : Int)

/-- `digits * 10 ^ exponent` is not beyond the largest double. -/
def fitsDouble (digits : List Char) (exponent : Int) : Bool :=
  let n := digitsValue 10 digits
  let size : Int := exponent + digits.length
  if n = 0 || size < -400 then true
  else if exponent > 400 then false
  else (Decimal.nearest (Decimal.Ratio.scale ⟨n, 1⟩ 10 exponent)).isSome

/-- The exponent after its mark. -/
def exponent? (cs : List Char) : Option Int :=
  let (negative, digits) := splitSign cs
  (plainDigits? Char.isDigit digits).map fun ds =>
    let n : Int := digitsValue 10 ds
    if negative then -n else n

/-- The mark of an exponent. -/
def isExponentMark (c : Char) : Bool :=
  c = 'e' || c = 'E'

/-- A text that says a float. -/
def isFloat (cs : List Char) : Bool :=
  let (_, number) := splitSign cs
  if number = ['i', 'n', 'f'] || number = ['n', 'a', 'n'] then true
  else
    let digits := number.takeWhile fun c => !isExponentMark c
    let whole := digits.takeWhile (· ≠ '.')
    let exponent := match number.dropWhile fun c => !isExponentMark c with
      | [] => some 0
      | _ :: rest => exponent? rest
    let fraction := match digits.dropWhile (· ≠ '.') with
      | [] => some []
      | _ :: rest => plainDigits? Char.isDigit rest
    match wholeDigits? whole, fraction, exponent with
    | some whole, some fraction, some exponent =>
      number.any (fun c => c = '.' || isExponentMark c)
        && fitsDouble (whole ++ fraction) (exponent - fraction.length)
    | _, _, _ => false

/-! ### Moments -/

/-- The number that two digits say. -/
def two? (a b : Char) : Option Nat :=
  if a.isDigit && b.isDigit then some ((a.toNat - 48) * 10 + (b.toNat - 48)) else none

/-- A year of 366 days. -/
def isLeapYear (year : Nat) : Bool :=
  (year % 4 == 0 && year % 100 != 0) || year % 400 == 0

/-- How many days a month has. -/
def daysIn (year month : Nat) : Nat :=
  if month = 2 then if isLeapYear year then 29 else 28
  else if month = 4 || month = 6 || month = 9 || month = 11 then 30
  else 31

/-- A date, `year-month-day`. -/
def isDate : List Char → Bool
  | [a, b, c, d, '-', e, f, '-', g, h] =>
    match two? a b, two? c d, two? e f, two? g h with
    | some century, some year, some month, some day =>
      1 ≤ month && month ≤ 12 && 1 ≤ day && day ≤ daysIn (century * 100 + year) month
    | _, _, _, _ => false
  | _ => false

/-- What follows the fraction of a second, which may be left out. -/
def afterFraction : List Char → Option (List Char)
  | '.' :: c :: cs => if c.isDigit then some (cs.dropWhile Char.isDigit) else none
  | cs => some cs

/-- What follows a time, `hour:minute:second` and a fraction. -/
def afterTime : List Char → Option (List Char)
  | a :: b :: ':' :: c :: d :: ':' :: e :: f :: cs =>
    match two? a b, two? c d, two? e f with
    | some hour, some minute, some second =>
      if hour ≤ 23 && minute ≤ 59 && second ≤ 60 then afterFraction cs else none
    | _, _, _ => none
  | _ => none

/-- An offset, `Z` or a sign with `hour:minute`, which may be left out. -/
def isOffset : List Char → Bool
  | [] => true
  | [z] => z = 'Z' || z = 'z'
  | [sign, a, b, ':', c, d] =>
    match two? a b, two? c d with
    | some hour, some minute => (sign = '+' || sign = '-') && hour ≤ 23 && minute ≤ 59
    | _, _ => false
  | _ => false

/-- A text that says a moment. -/
def isMoment (cs : List Char) : Bool :=
  if isDate (cs.take 10) then
    match cs.drop 10 with
    | [] => true
    | mark :: rest =>
      (mark = 'T' || mark = 't' || mark = ' ') && ((afterTime rest).map isOffset).getD false
  else (afterTime cs).map List.isEmpty == some true

/-! ### Scalars -/

/-- A character that ends a scalar. -/
def endsScalar (c : Char) : Bool :=
  c = ' ' || c = '\t' || c = '\n' || c = '\r' || c = ',' || c = ']' || c = '[' || c = '#' || c = '='
    || c = '"' || c = '\'' || c = '\x7b' || c = '\x7d'

/-- The text of a scalar, and what follows it. -/
def scalarText (cs : List Char) : List Char × List Char :=
  let text := cs.takeWhile fun c => !endsScalar c
  let rest := cs.dropWhile fun c => !endsScalar c
  match rest with
  | ' ' :: c :: more =>
    if isDate text && c.isDigit then
      (text ++ ' ' :: (c :: more).takeWhile fun c => !endsScalar c,
        (c :: more).dropWhile fun c => !endsScalar c)
    else (text, rest)
  | _ => (text, rest)

/-- The value of a scalar. -/
def scalar? (cs : List Char) : Option Value :=
  if cs = ['t', 'r', 'u', 'e'] then some (.boolean true)
  else if cs = ['f', 'a', 'l', 's', 'e'] then some (.boolean false)
  else if isMoment cs then some (.moment (String.ofList cs))
  else
    match anyInteger? cs with
    | some _ => (integer? cs).map .integer
    | none => if isFloat cs then some (.float (String.ofList cs)) else none

/-- A scalar at the start, and what follows it. -/
def readScalar (cs : List Char) : Option (Value × List Char) :=
  (scalar? (scalarText cs).1).map fun v => (v, (scalarText cs).2)

end Toml
end DependencyUse
