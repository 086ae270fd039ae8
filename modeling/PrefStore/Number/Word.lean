import PrefStore.Number.Rounding

/-!
# Integers of fixed width

An integer becomes a 32-bit or 64-bit word only where it fits. Truncating a floating-point
number instead stops at the ends of the 64-bit range.
-/

namespace PrefStore

/-- The least and the greatest integer of 32 bits. -/
def int32Least : Int := -2147483648

@[inherit_doc int32Least]
def int32Most : Int := 2147483647

/-- The least and the greatest integer of 64 bits. -/
def int64Least : Int := -9223372036854775808

@[inherit_doc int64Least]
def int64Most : Int := 9223372036854775807

/-- The greatest integer of 64 bits without sign. -/
def uint64Most : Int := 18446744073709551615

/-- The 32-bit word of an integer that fits. -/
def int32? (i : Int) : Option Int32 :=
  if int32Least ≤ i ∧ i ≤ int32Most then some (Int32.ofInt i) else none

/-- The 64-bit word of an integer that fits. -/
def int64? (i : Int) : Option Int64 :=
  if int64Least ≤ i ∧ i ≤ int64Most then some (Int64.ofInt i) else none

/-- The 64-bit word nearest to an integer. -/
def int64Nearest (i : Int) : Int64 :=
  if i < int64Least then Int64.ofInt int64Least
  else if int64Most < i then Int64.ofInt int64Most
  else Int64.ofInt i

/-- A 32-bit word fits again after it was read as an integer. -/
@[simp] theorem int32?_toInt (w : Int32) : int32? w.toInt = some w := by
  have low := w.le_toInt
  have high := w.toInt_lt
  rw [int32?, if_pos (by unfold int32Least int32Most; omega), Int32.ofInt_toInt]

/-- A 64-bit word fits again after it was read as an integer. -/
@[simp] theorem int64?_toInt (w : Int64) : int64? w.toInt = some w := by
  have low := w.le_toInt
  have high := w.toInt_lt
  rw [int64?, if_pos (by unfold int64Least int64Most; omega), Int64.ofInt_toInt]

/-- An integer fits 32 bits where it is the value of a word. -/
theorem int32?_eq_some_iff {i : Int} {w : Int32} : int32? i = some w ↔ i = w.toInt := by
  constructor
  · intro h
    unfold int32? int32Least int32Most at h
    split at h
    · next fits =>
      cases h
      exact (Int32.toInt_ofInt_of_le (by omega) (by omega)).symm
    · cases h
  · rintro rfl
    exact int32?_toInt w

/-- An integer fits 64 bits where it is the value of a word. -/
theorem int64?_eq_some_iff {i : Int} {w : Int64} : int64? i = some w ↔ i = w.toInt := by
  constructor
  · intro h
    unfold int64? int64Least int64Most at h
    split at h
    · next fits =>
      cases h
      exact (Int64.toInt_ofInt_of_le (by omega) (by omega)).symm
    · cases h
  · rintro rfl
    exact int64?_toInt w

/-- The integer part of a number, toward zero and stopped at the ends of the 64-bit range;
`0` for NaN. -/
def Binary.toInt64 : Double → Int64
  | .infinite negative => Int64.ofInt (if negative then int64Least else int64Most)
  | x => int64Nearest x.truncate

end PrefStore
