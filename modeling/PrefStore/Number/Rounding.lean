import PrefStore.Number.Binary

/-!
# Rounding to a format

`Binary.ofRatio` takes a positive quotient of natural numbers to the nearest number of a
format, a tie going to the even significand. Every other conversion is this one at a
particular quotient: an integer, a decimal `d · 10 ^ e`, a number of another format.
-/

namespace PrefStore

/-- The quotient rounded to the nearest integer, a tie to the even one. -/
def roundHalfEven (num den : Nat) : Nat :=
  let quotient := num / den
  let twice := 2 * (num % den)
  if twice < den then quotient
  else if den < twice then quotient + 1
  else quotient + quotient % 2

/-- The integer `k` with `2 ^ k ≤ num / den < 2 ^ (k + 1)`. -/
def logRatio (num den : Nat) : Int :=
  let guess : Int := (num.log2 : Int) - den.log2
  if den * twoPow guess.toNat ≤ num * twoPow (-guess).toNat then guess else guess - 1

/-- Moves up to `fuel` factors of two from the significand into the exponent. -/
def oddPart : (fuel : Nat) → (m : Nat) → (q : Int) → Nat × Int
  | 0, m, q => (m, q)
  | fuel + 1, m, q => if m % 2 = 0 then oddPart fuel (m / 2) (q + 1) else (m, q)

namespace Binary

/-- `m · 2 ^ q` for a significand of at most the format's precision; what is too large for
the format becomes infinite. -/
def ofScaled (f : Format) (negative : Bool) (m : Nat) (q : Int) : Binary f :=
  if m = 0 then zero negative
  else
    let odd := oddPart (m.log2 + 1) m q
    if held : f.Holds odd.1 odd.2 then finite negative odd.1 odd.2 held else infinite negative

/-- The number of the format nearest to `num / den`, a tie going to the even significand. -/
def ofRatio (f : Format) (negative : Bool) (num den : Nat) : Binary f :=
  if num = 0 then zero negative
  else
    let q := max f.least (logRatio num den - (f.precision - 1))
    ofScaled f negative (roundHalfEven (num * twoPow (-q).toNat) (den * twoPow q.toNat)) q

/-- The number nearest to an integer. -/
def ofInt (f : Format) (i : Int) : Binary f :=
  ofRatio f (i < 0) i.natAbs 1

/-- The number nearest to `digits · 10 ^ exponent`. A decimal at or above `10 ^ bound`, or
below `10 ^ least`, is beyond the format and settled without forming the quotient. -/
def ofDecimal (f : Format) (negative : Bool) (digits : Nat) (exponent : Int) : Binary f :=
  if digits = 0 then zero negative
  else
    let above : Int := exponent + ((digits.log2 : Int) + 1) * 31 / 100 + 1
    if f.bound ≤ exponent then infinite negative
    else if above < f.least then zero negative
    else ofRatio f negative (digits * tenPow exponent.toNat) (tenPow (-exponent).toNat)

/-- The 32-bit number nearest to a 64-bit one; large values become infinite. -/
def narrow : Double → Single
  | nan => nan
  | infinite negative => infinite negative
  | zero negative => zero negative
  | finite negative m q _ => ofRatio .single negative (m * twoPow q.toNat) (twoPow (-q).toNat)

/-- The integer part, toward zero; `0` where there is none. -/
def truncate {f : Format} : Binary f → Int
  | finite negative m q _ =>
    let magnitude : Int := (m * twoPow q.toNat / twoPow (-q).toNat : Nat)
    if negative then -magnitude else magnitude
  | _ => 0

end Binary

end PrefStore
