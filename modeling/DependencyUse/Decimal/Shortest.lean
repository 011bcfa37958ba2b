/-
# Shortest decimal text of a double

A decimal literal denotes the double nearest to it, ties to the even mantissa; the
text of a double is the shortest decimal that reads back as it, and of those the
nearest to it.

* `nearest num den` is the double `mantissa * 2 ^ exponent` nearest to `num / den`.
* `shortest` looks at the grids of 1, 2, … 17 digits.  If a point of a grid lies in
  the interval of reals that round to the double, so does one of the two points
  around the double itself, so only those two are tried.
* `positional` writes the digits without an exponent.
-/

namespace DependencyUse
namespace Decimal

/-- The finite double `mantissa * 2 ^ exponent`. -/
structure Double where
  mantissa : Nat
  exponent : Int
deriving DecidableEq, Repr, Inhabited

/-- A non-negative fraction. -/
structure Ratio where
  num : Nat
  den : Nat
deriving Repr, Inhabited

/-- `r * base ^ e`. -/
def Ratio.scale (r : Ratio) (base : Nat) (e : Int) : Ratio :=
  if e ≥ 0 then ⟨r.num * Nat.pow base e.toNat, r.den⟩
  else ⟨r.num, r.den * Nat.pow base (-e).toNat⟩

def Ratio.le (a b : Ratio) : Bool := a.num * b.den ≤ b.num * a.den

def Ratio.lt (a b : Ratio) : Bool := a.num * b.den < b.num * a.den

/-- The whole number nearest to a fraction, ties to even. -/
def Ratio.round (r : Ratio) : Nat :=
  let q := r.num / r.den
  let twice := 2 * (r.num % r.den)
  if twice > r.den || (twice == r.den && q % 2 == 1) then q + 1 else q

/-- The least exponent of a double. -/
def minExponent : Int := -1074

/-- The double nearest to a fraction, or `none` beyond the largest. -/
def nearest (r : Ratio) : Option Double :=
  if r.num == 0 then some ⟨0, minExponent⟩
  else
    let guess := (r.num.log2 : Int) - (r.den.log2 : Int) - 52
    let whole (e : Int) : Nat := let s := r.scale 2 (-e); s.num / s.den
    let fitted :=
      if whole guess ≥ Nat.pow 2 53 then guess + 1
      else if whole guess < Nat.pow 2 52 then guess - 1
      else guess
    let e := if fitted < minExponent then minExponent else fitted
    let m := (r.scale 2 (-e)).round
    let (m, e) := if m == Nat.pow 2 53 then (Nat.pow 2 52, e + 1) else (m, e)
    if e > 971 then none else some ⟨m, e⟩

/-- The value of a double. -/
def Double.ratio (d : Double) : Ratio := Ratio.scale ⟨d.mantissa, 1⟩ 2 d.exponent

/-- Whether the fraction `r` rounds to `d`: it lies between the midpoints to the
neighbours of `d`, which belong to `d` when its mantissa is even. -/
def Double.holds (d : Double) (r : Ratio) : Bool :=
  let low : Ratio :=
    if d.mantissa == Nat.pow 2 52 && d.exponent > minExponent then
      Ratio.scale ⟨4 * d.mantissa - 1, 1⟩ 2 (d.exponent - 2)
    else Ratio.scale ⟨2 * d.mantissa - 1, 1⟩ 2 (d.exponent - 1)
  let high := Ratio.scale ⟨2 * d.mantissa + 1, 1⟩ 2 (d.exponent - 1)
  if d.mantissa % 2 == 0 then low.le r && r.le high else low.lt r && r.lt high

/-- The least `k` with `r < 10 ^ k`, for `r > 0`. -/
def Ratio.magnitude (r : Ratio) : Int :=
  let k : Int :=
    if r.num ≥ r.den then ((Nat.toDigits 10 (r.num / r.den)).length : Int)
    else 1 - ((Nat.toDigits 10 (r.den / r.num)).length : Int)
  if r.lt (Ratio.scale ⟨1, 1⟩ 10 k) then k else k + 1

/-- Tries `digits` digits, then more, `fuel` times. -/
def shortestFrom (d : Double) (k : Int) : Nat → Nat → Nat × Int
  | 0, digits =>
    let e := k - digits
    ((d.ratio.scale 10 (-e)).round, e)
  | fuel + 1, digits =>
    let e := k - digits
    let scaled := d.ratio.scale 10 (-e)
    let below := scaled.num / scaled.den
    let fits (n : Nat) : Bool := d.holds (Ratio.scale ⟨n, 1⟩ 10 e)
    match fits below, fits (below + 1) with
    | true, true => (if 2 * (scaled.num % scaled.den) > scaled.den then below + 1 else below, e)
    | true, false => (below, e)
    | false, true => (below + 1, e)
    | false, false => shortestFrom d k fuel (digits + 1)

/-- The shortest decimal `n * 10 ^ e` that reads back as `d`. -/
def shortest (d : Double) : Nat × Int :=
  if d.mantissa == 0 then (0, 0) else shortestFrom d d.ratio.magnitude 17 1

/-- Drops the zeros at the end of a whole number, raising the exponent, `fuel` times
at most. -/
def dropZeros : Nat → Nat × Int → Nat × Int
  | 0, p => p
  | fuel + 1, (n, e) => if n != 0 && n % 10 == 0 then dropZeros fuel (n / 10, e + 1) else (n, e)

/-- `n * 10 ^ e` in positional notation. -/
def positional (n : Nat) (e : Int) : String :=
  let digits := Nat.toDigits 10 n
  if e ≥ 0 then String.ofList (digits ++ List.replicate e.toNat '0')
  else
    let places := (-e).toNat
    if digits.length > places then
      let cut := digits.length - places
      String.ofList (digits.take cut ++ '.' :: digits.drop cut)
    else String.ofList ('0' :: '.' :: (List.replicate (places - digits.length) '0' ++ digits))

/-- The text of the double that the literal `mantissa * 10 ^ exponent` denotes. -/
def text (mantissa : Nat) (exponent : Int) : String :=
  if mantissa == 0 then "0"
  else if exponent > 400 then "inf"
  else if exponent + ((Nat.toDigits 10 mantissa).length : Int) < -400 then "0"
  else match nearest (Ratio.scale ⟨mantissa, 1⟩ 10 exponent) with
    | none => "inf"
    | some d =>
      let (n, e) := dropZeros 400 (shortest d)
      if n == 0 then "0" else positional n e

end Decimal
end DependencyUse
