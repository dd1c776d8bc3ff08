import Brainfuck.Text.Decimal

/-!
# Brainfuck.Text.Binary64

Floating-point numbers of 64 bits as texts write them, in exact arithmetic: a
finite number is a significand of at most 53 bits times a power of two.

Reading a decimal rounds it to the nearest such number, a half to the even
significand.  Writing picks the fewest digits that read back, and of those the
nearest, a half away from zero; all digits are written out, and a whole number
keeps one decimal place.

```
1.5 ↦ 1.5    1e3 ↦ 1000.0    1e-7 ↦ 0.0000001    1e23 ↦ 100000000000000000000000.0
```
-/

namespace Brainfuck.Text

/-- A floating-point number of 64 bits. -/
inductive Binary64 where
  /-- The number `significand * 2 ^ exponent`, or its negative. -/
  | finite (negative : Bool) (significand : Nat) (exponent : Int)
  | infinite (negative : Bool)
  | nan
deriving DecidableEq, Repr

namespace Binary64

/-- Significands are below this bound, which is `2 ^ 53`. -/
def significandBound : Nat := 9007199254740992

/-- The exponent of the smallest numbers. -/
def leastExponent : Int := -1074

/-- The exponent of the largest numbers. -/
def greatestExponent : Int := 971

/-- The quotient rounded to the nearest whole number, a half to the even one. -/
def roundDiv (num den : Nat) : Nat :=
  let q := num / den
  let twice := 2 * (num % den)
  if twice < den then q
  else if twice > den then q + 1
  else q + q % 2

/-- The fraction `num / den` divided by `base ^ e`, as numerator and denominator. -/
def scale (num den base : Nat) (e : Int) : Nat × Nat :=
  if 0 ≤ e then (num, den * base.pow e.toNat) else (num * base.pow (-e).toNat, den)

/-- The number nearest to the fraction `num / den`, which is not zero. -/
def ofFraction (negative : Bool) (num den : Nat) : Binary64 :=
  let guess := max ((num.log2 : Int) - (den.log2 : Int) - 53) leastExponent
  let (n, d) := scale num den 2 guess
  let e := if n / d < significandBound then guess else guess + 1
  let (n, d) := scale num den 2 e
  let m := roundDiv n d
  let (m, e) := if m < significandBound then (m, e) else (m / 2, e + 1)
  if greatestExponent < e then .infinite negative else .finite negative m e

/-- The number nearest to `digits * 10 ^ e`. -/
def ofDecimal (negative : Bool) (digits : Nat) (e : Int) : Binary64 :=
  let places : Int := (Nat.toDigits 10 digits).length
  if digits = 0 ∨ places + e < -400 then .finite negative 0 leastExponent
  else if 400 < places + e then .infinite negative
  else
    let (num, den) := scale digits 1 10 (-e)
    ofFraction negative num den

/-- The least `k` from `start` on with `num / den < 10 ^ k`, within `fuel` tries. -/
def decimalPlaces (num den : Nat) (start : Int) : Nat → Int
  | 0 => start
  | fuel + 1 =>
    let (n, d) := scale num den 10 start
    if n < d then start else decimalPlaces num den (start + 1) fuel

/-- A decimal with `count` digits, the first of them at position `k`, that reads
back as `m * 2 ^ e`: its digits and the power of ten that multiplies them.  Of
two such decimals it is the nearer one, and of two equally near ones the larger.

Everything is compared in quarters of the last binary place, `2 ^ (e - 2)`: the
reals that round to the number reach two quarters to either side, but only one
below a power of two, where the numbers get denser.  The ends belong to it if
the significand is even. -/
def candidate? (m : Nat) (e k : Int) (count : Nat) : Option (Nat × Int) :=
  let power := k - (count : Int)
  let (quarterNum, quarterDen) := scale 1 1 2 (2 - e)
  let (gridNum, gridDen) := scale 1 1 10 (-power)
  let quarters (n : Nat) : Nat := n * quarterNum * gridDen
  let step := gridNum * quarterDen
  let below := if 2 * m = significandBound ∧ leastExponent < e then 1 else 2
  let low := quarters (4 * m - below)
  let high := quarters (4 * m + 2)
  let inside (c : Nat) : Bool :=
    if m % 2 = 0 then low ≤ c * step && c * step ≤ high else low < c * step && c * step < high
  let floor := quarters (4 * m) / step
  let nearer := if 2 * (quarters (4 * m) % step) < step then floor else floor + 1
  if inside nearer then some (nearer, power)
  else if inside floor then some (floor, power)
  else if inside (floor + 1) then some (floor + 1, power)
  else none

/-- The fewest digits that read back as `m * 2 ^ e`, from `count` digits on. -/
def fewest (m : Nat) (e k : Int) (count : Nat) : Nat → Nat × Int
  | 0 => (0, 0)
  | fuel + 1 => (candidate? m e k count).getD (fewest m e k (count + 1) fuel)

/-- The shortest decimal that reads back as `m * 2 ^ e`.  Seventeen digits always do. -/
def shortest (m : Nat) (e : Int) : Nat × Int :=
  if m = 0 then (0, 0)
  else
    let (num, den) := scale m 1 2 (-e)
    fewest m e (decimalPlaces num den (-330) 660) 1 17

/-- All digits of `digits * 10 ^ power`, with at least one decimal place. -/
def positional (digits : Nat) (power : Int) : String :=
  if 0 ≤ power then decimal (digits * Nat.pow 10 power.toNat) ++ ".0"
  else
    let width := (-power).toNat
    let places := (Nat.toDigits 10 (digits % Nat.pow 10 width))
    let padded := List.replicate (width - places.length) '0' ++ places
    let kept := (padded.reverse.dropWhile (· == '0')).reverse
    decimal (digits / Nat.pow 10 width) ++ "." ++ (if kept.isEmpty then "0" else String.ofList kept)

/-- The text of a floating-point number. -/
def text : Binary64 → String
  | .finite negative m e =>
    let (digits, power) := shortest m e
    (if negative then "-" else "") ++ positional digits power
  | .infinite negative => if negative then "-inf" else "inf"
  | .nan => "NaN"

example : text (ofDecimal false 15 (-1)) = "1.5" := by decide +kernel
example : text (ofDecimal false 1 23) = "100000000000000000000000.0" := by decide +kernel
example : text (ofDecimal true 5 (-324)) ≠ text (ofDecimal true 0 0) := by decide +kernel
example : text (ofDecimal false 30000000000000004 (-17)) = "0.30000000000000004" := by
  decide +kernel

end Binary64

end Brainfuck.Text
