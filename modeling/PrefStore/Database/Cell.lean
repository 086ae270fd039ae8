import PrefStore.Database.RealText
import PrefStore.Text.Blank

/-!
# Cells of a database

A cell holds a value of one of five storage classes. A column may prefer a class: a text
column turns numbers into text, an integer column turns whole numbers and numeric text into
integers, and a real column knows only one zero. A real that is not a number is stored as null.
-/

namespace PrefStore

/-- The contents of a cell. -/
inductive Cell where
  | null
  | int (i : Int64)
  | real (x : Double)
  | text (s : String)
  | blob (bytes : List UInt8)
  deriving DecidableEq

namespace Cell

/-- What a database stores when it is given a cell: a NaN becomes null. -/
def stored : Cell → Cell
  | real .nan => null
  | cell => cell

/-- What a text column stores. -/
def inTextColumn : Cell → Cell
  | int i => text (toString i.toInt)
  | real x => text (realText x)
  | cell => cell

/-- The integer that equals a number, where there is one short of the ends of 64 bits. -/
def wholeReal? (x : Double) : Option Int64 :=
  if x.same (Binary.ofInt .double x.truncate) ∧ int64Least < x.truncate ∧
      x.truncate < int64Most then int64? x.truncate
  else none

/-- What an integer column stores. -/
def inIntegerColumn : Cell → Cell
  | real x =>
    match wholeReal? x with
    | some i => int i
    | none => real x
  | text s =>
    match readInt64? (trimSpace s), Numeral.readLoose (trimSpace s).toList with
    | some i, _ => int i
    | none, some numeral =>
      match wholeReal? numeral.toReal with
      | some i => int i
      | none => real numeral.toReal
    | none, none => text s
  | cell => cell

/-- What a real column stores and gives back: one zero only. -/
def inRealColumn : Cell → Cell
  | real (.zero _) => real (.zero false)
  | cell => cell

/-- Ascending order of keys: text by its code points, then blobs by their bytes. -/
def keyBefore : Cell → Cell → Bool
  | text a, text b => a < b
  | text _, _ => true
  | blob a, blob b => a < b
  | _, _ => false

end Cell

end PrefStore
