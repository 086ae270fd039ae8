import PrefStore.Number.Rounding

/-!
# Shortest decimals

`Binary.shortest` finds the coarsest decimal grid with a point that reads back as the given
number, and on it the point nearest to the number. Which of two equally near points is taken
belongs to the text format, as does every other choice of notation, and is collected in a
`Numerals` record. Two formats are in use: the numerals of JSON text and plain numerals.
-/

namespace PrefStore

/-- The number `digits · 10 ^ exponent`. -/
structure Decimal where
  digits : Nat
  exponent : Int
  deriving DecidableEq, Repr

/-- Which of two equally near decimals is taken. -/
inductive DecimalTie where
  /-- The one whose last digit is even. -/
  | even
  /-- The one farther from zero. -/
  | away
  deriving DecidableEq, Repr

/-- A number `center · 2 ^ scale` with the ends, on the same scale, of the interval of reals
that round to it; `closed` says whether the ends do too. -/
structure RoundingInterval where
  low : Nat
  center : Nat
  high : Nat
  scale : Int
  closed : Bool
  deriving DecidableEq, Repr

/-- The reals that round to `m · 2 ^ q`. The interval is a quarter unit narrower below a
power of two, where the spacing of the format halves. -/
def Format.interval (f : Format) (m : Nat) (q : Int) : RoundingInterval :=
  let unit := max f.least ((m.log2 : Int) + q - (f.precision - 1))
  let whole := m * twoPow (q - unit).toNat
  let center := 4 * whole
  let narrow := decide (whole = twoPow (f.precision - 1) ∧ f.least < unit)
  ⟨if narrow then center - 1 else center - 2, center, center + 2, unit - 2, whole % 2 = 0⟩

namespace RoundingInterval

/-- The nearest point of the grid `10 ^ g` among those inside the interval, if there is one. -/
def nearest? (r : RoundingInterval) (tie : DecimalTie) (g : Int) : Option Decimal :=
  let grid := tenPow g.toNat * twoPow (-r.scale).toNat
  let unit := tenPow (-g).toNat * twoPow r.scale.toNat
  let inside (c : Nat) : Bool :=
    if r.closed then r.low * unit ≤ c * grid ∧ c * grid ≤ r.high * unit
    else r.low * unit < c * grid ∧ c * grid < r.high * unit
  let below := r.center * unit / grid
  let above := below + 1
  let gapBelow := r.center * unit - below * grid
  let gapAbove := above * grid - r.center * unit
  match inside below, inside above with
  | false, false => none
  | true, false => some ⟨below, g⟩
  | false, true => some ⟨above, g⟩
  | true, true =>
    let takeBelow :=
      if gapBelow = gapAbove then
        match tie with
        | .even => decide (below % 2 = 0)
        | .away => false
      else decide (gapBelow < gapAbove)
    some ⟨if takeBelow then below else above, g⟩

end RoundingInterval

/-- A power of ten above `m · 2 ^ q`, at most two places too high. -/
def decimalCeiling (m : Nat) (q : Int) : Int :=
  ((m.log2 : Int) + q + 1) * 30103 / 100000 + 1

/-- The shortest decimal that rounds to `m · 2 ^ q`, and the nearest such one. Twenty-four
grids reach past the seventeen digits that the widest format needs. -/
def Format.shortest (f : Format) (tie : DecimalTie) (m : Nat) (q : Int) : Decimal :=
  let r := f.interval m q
  let top := decimalCeiling m q
  ((List.range 24).findSome? fun (i : Nat) => r.nearest? tie (top - i)).getD
    ⟨m * twoPow q.toNat / twoPow (-q).toNat, 0⟩

/-- How a format writes numbers. -/
structure Numerals where
  tie : DecimalTie
  /-- Whether a number whose leading digit stands at `10 ^ e` is written without exponent. -/
  positional : (e : Int) → Bool
  /-- Whether a whole number written without exponent ends in `.0`. -/
  pointed : Bool

namespace Numerals

/-- The numerals of JSON text: an exponent below `10 ^ -5` and from `10 ^ 16` on, written with
its sign, and a point in every other numeral. -/
def json : Numerals := ⟨.even, fun e => -5 ≤ e ∧ e ≤ 15, true⟩

/-- Plain numerals have neither an exponent nor an idle point. -/
def plain : Numerals := ⟨.away, fun _ => true, false⟩

private def zeros (n : Nat) : String := String.ofList (List.replicate n '0')

/-- A decimal in positional notation. -/
def positionally (style : Numerals) (d : Decimal) : String :=
  let digits := toString d.digits
  if 0 ≤ d.exponent then
    digits ++ zeros d.exponent.toNat ++ (if style.pointed then ".0" else "")
  else
    let places := (-d.exponent).toNat
    if places < digits.length then
      String.ofList (digits.toList.take (digits.length - places)) ++ "." ++
        String.ofList (digits.toList.drop (digits.length - places))
    else "0." ++ zeros (places - digits.length) ++ digits

/-- A decimal in scientific notation, with the exponent `e` of its leading digit. -/
def scientifically (d : Decimal) (e : Int) : String :=
  let digits := toString d.digits
  let tail := if digits.length = 1 then "" else "." ++ String.ofList (digits.toList.drop 1)
  let sign := if e < 0 then "-" else "+"
  String.ofList (digits.toList.take 1) ++ tail ++ "e" ++ sign ++ toString e.natAbs

/-- The text of a positive decimal. -/
def decimal (style : Numerals) (d : Decimal) : String :=
  let e := d.exponent + ((toString d.digits).length : Int) - 1
  if style.positional e then style.positionally d else scientifically d e

/-- The text of a number. -/
def text (style : Numerals) {f : Format} : Binary f → String
  | .nan => "NaN"
  | .infinite negative => if negative then "-inf" else "inf"
  | .zero negative =>
    (if negative then "-" else "") ++ "0" ++ (if style.pointed then ".0" else "")
  | .finite negative m q _ =>
    (if negative then "-" else "") ++ style.decimal (f.shortest style.tie m q)

end Numerals

end PrefStore
