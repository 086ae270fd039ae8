import PrefStore.Number.Rounding

/-!
# Extended precision

The 80-bit format holds every 64-bit number and eleven more significant bits. A number is
moved by decimal places in it by multiplying with powers of ten, a hundred places at a time,
then ten, then one; every product is rounded, so the outcome may miss the nearest number by a
little, and exactly how much is part of the result.
-/

namespace PrefStore

/-- The 80-bit format. -/
def Format.extended : Format := ⟨64, -16445, 16384⟩

/-- Whatever the 64-bit format holds, the 80-bit format holds in the same form. -/
theorem Format.Holds.extend {m : Nat} {q : Int} (h : Format.double.Holds m q) :
    Format.extended.Holds m q := by
  obtain ⟨odd, small, low, high⟩ := h
  exact ⟨odd, Nat.lt_of_lt_of_le small (by decide), Int.le_trans (by decide) low,
    Int.lt_trans high (by decide)⟩

/-- An 80-bit number. -/
abbrev Extended := Binary .extended

namespace Binary

variable {f : Format}

/-- A 64-bit number is an 80-bit number of the same form. -/
def extend : Double → Extended
  | nan => nan
  | infinite negative => infinite negative
  | zero negative => zero negative
  | finite negative m q held => finite negative m q held.extend

/-- Extending keeps a finite number finite and gives no other number that property. -/
@[simp] theorem isFinite_extend (x : Double) : x.extend.isFinite = x.isFinite := by
  cases x <;> rfl

/-- The sign of a number; a NaN counts as positive. -/
def isNegative : Binary f → Bool
  | nan => false
  | infinite negative | zero negative | finite negative .. => negative

/-- The product, rounded to the format. -/
def mul (a b : Binary f) : Binary f :=
  let negative := a.isNegative != b.isNegative
  match a, b with
  | nan, _ | _, nan | infinite _, zero _ | zero _, infinite _ => nan
  | infinite _, _ | _, infinite _ => infinite negative
  | zero _, _ | _, zero _ => zero negative
  | finite _ m q _, finite _ n r _ =>
    ofRatio f negative (m * n * twoPow (q + r).toNat) (twoPow (-(q + r)).toNat)

/-- Whether the first of two numbers is nearer to zero. -/
def nearer : Binary f → Binary f → Bool
  | nan, _ | _, nan | infinite _, _ | _, zero _ => false
  | _, infinite _ | zero _, _ => true
  | finite _ m q _, finite _ n r _ =>
    m * twoPow (q - r).toNat < n * twoPow (r - q).toNat

/-- The number nearest to a power of ten. -/
def powerOfTen (exponent : Int) : Extended := ofDecimal .extended false 1 exponent

/-- Moves a number by decimal places. -/
def movePlaces (x : Extended) (places : Int) : Extended :=
  let n := places.natAbs
  let hundred := powerOfTen (100 * places.sign)
  let ten := powerOfTen (10 * places.sign)
  let one := powerOfTen places.sign
  Nat.repeat (mul one) (n % 10)
    (Nat.repeat (mul ten) (n % 100 / 10) (Nat.repeat (mul hundred) (n / 100) x))

/-- The greatest finite 64-bit number. -/
def doubleMost : Extended := ofRatio .extended false ((twoPow 53 - 1) * twoPow 971) 1

/-- The nearest 64-bit number; all that lies above the greatest finite one is infinite. -/
def toDouble : Extended → Double
  | nan => nan
  | infinite negative => infinite negative
  | zero negative => zero negative
  | x@(finite negative m q _) =>
    if doubleMost.nearer x then infinite negative
    else ofRatio .double negative (m * twoPow q.toNat) (twoPow (-q).toNat)

end Binary

end PrefStore
