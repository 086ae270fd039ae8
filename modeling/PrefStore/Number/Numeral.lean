import PrefStore.Number.Word

/-!
# Reading numerals

A numeral is read into its digits, the places after its point and its exponent, and only then
turned into a number. JSON text admits one spelling of each part; a numeric string may carry
a plus sign and may leave out the digits on one side of the point.
-/

namespace PrefStore

/-- The value of a string of decimal digits. -/
def digitsValue (digits : List Char) : Nat :=
  digits.foldl (fun value c => 10 * value + (c.toNat - '0'.toNat)) 0

/-- The parts of a numeral; `exponent` is absent where none was written. -/
structure Numeral where
  negative : Bool
  whole : List Char
  fraction : Option (List Char)
  exponent : Option Int
  deriving DecidableEq, Repr

namespace Numeral

/-- A numeral with neither a point nor an exponent. -/
def isWhole (n : Numeral) : Bool := n.fraction.isNone && n.exponent.isNone

/-- The integer that the digits before the point spell. -/
def toInt (n : Numeral) : Int :=
  if n.negative then -(digitsValue n.whole : Int) else digitsValue n.whole

/-- The 64-bit number nearest to the numeral. -/
def toDouble (n : Numeral) : Double :=
  let places := n.fraction.getD []
  Binary.ofDecimal .double n.negative (digitsValue (n.whole ++ places))
    (n.exponent.getD 0 - places.length)

/-- Reads a sign of an exponent and the digits after it. -/
private def readExponentDigits (negative : Bool) (cs : List Char) :
    Option (Option Int × List Char) :=
  match cs.takeWhile Char.isDigit with
  | [] => none
  | digits =>
    let value : Int := digitsValue digits
    some (some (if negative then -value else value), cs.dropWhile Char.isDigit)

/-- Reads an exponent if there is one; a mark without digits is refused. -/
def readExponent : List Char → Option (Option Int × List Char)
  | 'e' :: '+' :: cs | 'E' :: '+' :: cs => readExponentDigits false cs
  | 'e' :: '-' :: cs | 'E' :: '-' :: cs => readExponentDigits true cs
  | 'e' :: cs | 'E' :: cs => readExponentDigits false cs
  | cs => some (none, cs)

/-- Reads a point and the digits after it if there is a point; at least `least` digits. -/
def readFraction (least : Nat) : List Char → Option (Option (List Char) × List Char)
  | '.' :: cs =>
    let digits := cs.takeWhile Char.isDigit
    if digits.length < least then none else some (some digits, cs.dropWhile Char.isDigit)
  | cs => some (none, cs)

/-- A lone zero, or digits that do not start with a zero. -/
def wholeAllowed (digits : List Char) : Bool :=
  digits = ['0'] || (!digits.isEmpty && digits.head? ≠ some '0')

/-- Reads the numeral at the front of a JSON text. -/
def readJson (cs : List Char) : Option (Numeral × List Char) := do
  let (negative, cs) := match cs with
    | '-' :: rest => (true, rest)
    | _ => (false, cs)
  let whole := cs.takeWhile Char.isDigit
  if !wholeAllowed whole then failure
  let (fraction, cs) ← readFraction 1 (cs.dropWhile Char.isDigit)
  let (exponent, cs) ← readExponent cs
  return (⟨negative, whole, fraction, exponent⟩, cs)

/-- Splits off the sign of a numeric string. -/
def readSign : List Char → Bool × List Char
  | '-' :: cs => (true, cs)
  | '+' :: cs => (false, cs)
  | cs => (false, cs)

/-- Reads a whole string as a numeral with an optional sign and at least one digit. -/
def readLoose (cs : List Char) : Option Numeral := do
  let (negative, cs) := readSign cs
  let whole := cs.takeWhile Char.isDigit
  let (fraction, cs) ← readFraction 0 (cs.dropWhile Char.isDigit)
  if (whole ++ fraction.getD []).isEmpty then failure
  let (exponent, cs) ← readExponent cs
  if !cs.isEmpty then failure
  return ⟨negative, whole, fraction, exponent⟩

end Numeral

/-- The integer spelled by an optional sign and decimal digits, where it fits 64 bits. -/
def readInt64? (s : String) : Option Int64 :=
  let (negative, digits) := Numeral.readSign s.toList
  if digits.isEmpty || !digits.all Char.isDigit then none
  else
    let value : Int := digitsValue digits
    int64? (if negative then -value else value)

/-- The finite number spelled by a numeric string. -/
def readFinite? (s : String) : Option Double :=
  (Numeral.readLoose s.toList).bind fun n =>
    if n.toDouble.isFinite then some n.toDouble else none

end PrefStore
