import PrefStore.Number.Extended
import PrefStore.Number.Numeral

/-!
# Reals as text

How a database reads a real from text and writes one as text. Reading keeps about nineteen
digits in a word of 64 bits and then moves them to their place; writing moves the number until
its whole part has seventeen to nineteen digits, and keeps fifteen. Both move in extended
precision, so neither is always the nearest.
-/

namespace PrefStore

/-! ## Reading -/

namespace Numeral

/-- From this value on a word takes no further digit, so that it stays below `2 ^ 64`. -/
def fullWord : Nat := 1844674407370955160

/-- Appends digits to a word until it is full; the digits that are left over are kept. -/
def fillWord : (word : Nat) → (digits : List Char) → Nat × List Char
  | word, [] => (word, [])
  | word, c :: cs =>
    if fullWord ≤ word then (word, c :: cs)
    else fillWord (10 * word + (c.toNat - '0'.toNat)) cs

/-- Moves places from a positive exponent into a word that is not full. -/
def raiseWord : (word : Nat) → (places : Nat) → Nat × Nat
  | word, 0 => (word, 0)
  | word, places + 1 =>
    if word ≤ fullWord then raiseWord (10 * word) places else (word, places + 1)

/-- Moves zeros at the end of a word into a negative exponent. -/
def lowerWord : (word : Nat) → (places : Nat) → Nat × Nat
  | word, 0 => (word, 0)
  | word, places + 1 =>
    if word % 10 = 0 then lowerWord (word / 10) places else (word, places + 1)

/-- Exponents of more than five digits all count as this one. -/
def farExponent : Nat := 10000

/-- The exponent of a numeral, far ones replaced. -/
def nearExponent (n : Numeral) : Int :=
  let e := n.exponent.getD 0
  if e.natAbs < 10 * farExponent then e else e.sign * farExponent

/-- The real that a database reads from a numeral. -/
def toReal (n : Numeral) : Double :=
  let (word, skipped) := fillWord 0 n.whole
  let places := n.fraction.getD []
  let (word, dropped) := fillWord word places
  let exponent := n.nearExponent + skipped.length - (places.length - dropped.length : Nat)
  if word = 0 then .zero n.negative
  else
    let (word, left) :=
      if 0 ≤ exponent then raiseWord word exponent.toNat else lowerWord word (-exponent).toNat
    if left = 0 then .ofRatio .double n.negative word 1
    else ((Binary.ofRatio .extended n.negative word 1).movePlaces (exponent.sign * left)).toDouble

end Numeral

/-! ## Writing -/

namespace RealText

/-- Repeats a move while the number is on one side of a limit; twelve times reach every limit
in use. -/
def moveWhile (outside : Extended → Bool) (places : Int) (state : Extended × Int) :
    Extended × Int :=
  Nat.repeat
    (fun state =>
      if outside state.1 then (state.1.movePlaces places, state.2 - places) else state)
    12 state

/-- Moves a positive number until its whole part has seventeen to nineteen digits; gives the
number and the exponent that puts it back. -/
def wide (x : Extended) : Extended × Int :=
  let reaches (e : Int) (x : Extended) : Bool := !x.nearer (.powerOfTen e)
  let below (e : Int) (x : Extended) : Bool := x.nearer (.powerOfTen e)
  if reaches 19 x then
    moveWhile (reaches 19) (-1) (moveWhile (reaches 29) (-10) (moveWhile (reaches 119) (-100)
      (x, 0)))
  else
    moveWhile (below 17) 1 (moveWhile (below 7) 10 (moveWhile (below (-97)) 100 (x, 0)))

/-- The fifteen digits of a positive number, and the exponent of the first. -/
def significant (x : Extended) : Nat × Int :=
  let (x, shift) := wide x
  let whole := x.truncate.natAbs
  let length := (toString whole).length
  let kept := whole / tenPow (length - 15)
  let next := whole / tenPow (length - 16) % 10
  let e : Int := length + shift - 1
  let digits := if 5 ≤ next then kept + 1 else kept
  if digits = tenPow 15 then (tenPow 14, e + 1) else (digits, e)

/-- Digits without the zeros at their end. -/
def trimmed (digits : List Char) : List Char :=
  (digits.reverse.dropWhile (· = '0')).reverse

/-- Digits that are not left empty. -/
def filled (digits : List Char) : String :=
  String.ofList (if digits.isEmpty then ['0'] else digits)

/-- A number as text by its digits and the exponent of the first: always with a point, and
with an exponent of at least two digits below `10 ^ -4` and from `10 ^ 15` on. -/
def positional (digits : List Char) (e : Int) : String :=
  if e < -4 || 14 < e then
    let power := toString e.natAbs
    filled (digits.take 1) ++ "." ++ filled (trimmed (digits.drop 1)) ++ "e" ++
      (if e < 0 then "-" else "+") ++ (if power.length < 2 then "0" else "") ++ power
  else if e < 0 then
    "0." ++ filled (trimmed (List.replicate (-e - 1).toNat '0' ++ digits))
  else
    filled (digits.take (e + 1).toNat) ++ "." ++ filled (trimmed (digits.drop (e + 1).toNat))

end RealText

/-- The text that a database makes of a real; both zeros are written alike. -/
def realText : Double → String
  | .nan => ""
  | .infinite negative => if negative then "-Inf" else "Inf"
  | .zero _ => "0.0"
  | .finite negative m q held =>
    let (digits, e) := RealText.significant (Binary.extend (.finite false m q held))
    (if negative then "-" else "") ++ RealText.positional (toString digits).toList e

end PrefStore
