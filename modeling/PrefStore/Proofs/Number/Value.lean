import Mathlib.Algebra.Order.Field.Power
import Mathlib.Data.Rat.Floor
import Mathlib.Tactic.Linarith
import PrefStore.Json.Basic
import PrefStore.Proofs.Number.Exact

/-!
# Numbers as rational numbers

A finite floating-point number stands for a rational number. Truncating it takes the rational
number to the integer next to it on the side of zero, and a word of 64 bits that cannot hold that
integer holds the end of its range instead.
-/

namespace PrefStore

/-- The integer next to a rational number on the side of zero. -/
def towardZero (x : ℚ) : ℤ := if x < 0 then ⌈x⌉ else ⌊x⌋

/-- The integer of 64 bits that is nearest to an integer. -/
def saturated (i : ℤ) : ℤ := max int64Least (min int64Most i)

@[simp] theorem towardZero_intCast (i : ℤ) : towardZero i = i := by
  simp [towardZero]

private theorem towardZero_neg (x : ℚ) : towardZero (-x) = -towardZero x := by
  unfold towardZero
  rcases lt_trichotomy x 0 with h | rfl | h
  · have hneg : ¬ -x < 0 := by linarith
    rw [if_neg hneg, if_pos h, Int.floor_neg]
  · simp
  · have hneg : -x < 0 := by linarith
    rw [if_pos hneg, if_neg (not_lt.2 h.le), Int.ceil_neg]

/-- The nearest 64-bit word holds the nearest integer of 64 bits. -/
theorem toInt_int64Nearest (i : ℤ) : (int64Nearest i).toInt = saturated i := by
  have hleast : (Int64.ofInt int64Least).toInt = int64Least := by decide
  have hmost : (Int64.ofInt int64Most).toInt = int64Most := by decide
  unfold int64Nearest
  split
  · next hlow =>
    rw [hleast, saturated]
    unfold int64Least int64Most at *
    omega
  · split
    · next hhigh =>
      rw [hmost, saturated]
      unfold int64Least int64Most at *
      omega
    · have hfits : (Int64.ofInt i).toInt = i := by
        apply Int64.toInt_ofInt_of_le
        · unfold int64Least at *
          omega
        · unfold int64Most at *
          omega
      rw [hfits, saturated]
      unfold int64Least int64Most at *
      omega

@[simp] theorem saturated_toInt (w : Int64) : saturated w.toInt = w.toInt := by
  have hlow := w.le_toInt
  have hhigh := w.toInt_lt
  unfold saturated int64Least int64Most
  omega

namespace Binary

variable {f : Format}

/-- The rational number of a finite number; zero for the others. -/
def value : Binary f → ℚ
  | finite negative m q _ => if negative then -(m * 2 ^ q) else m * 2 ^ q
  | _ => 0

/-- A significand with its exponent is a quotient of natural numbers. -/
theorem scaled_eq_div (m : Nat) (q : ℤ) :
    (m : ℚ) * 2 ^ q = ((m * 2 ^ q.toNat : Nat) : ℚ) / ((2 ^ (-q).toNat : Nat) : ℚ) := by
  have hq : q = (q.toNat : ℤ) - ((-q).toNat : ℤ) := by omega
  have hpow : (2 : ℚ) ^ q = 2 ^ q.toNat / 2 ^ (-q).toNat := by
    conv_lhs => rw [hq]
    rw [zpow_sub₀ (by norm_num), zpow_natCast, zpow_natCast]
  rw [hpow]
  push_cast
  ring

/-- Truncation takes the integer part of the rational number. -/
theorem truncate_eq (x : Binary f) : x.truncate = towardZero x.value := by
  cases x with
  | nan | infinite | zero => simp [truncate, value, towardZero]
  | finite negative m q held =>
    have hquotient : towardZero ((m : ℚ) * 2 ^ q) =
        ((m * twoPow q.toNat / twoPow (-q).toNat : Nat) : ℤ) := by
      have hnonneg : ¬ (m : ℚ) * 2 ^ q < 0 := not_lt.2 (by positivity)
      rw [towardZero, if_neg hnonneg, scaled_eq_div, twoPow_eq, twoPow_eq]
      exact Rat.floor_natCast_div_natCast _ _
    cases negative with
    | false => simpa [truncate, value] using hquotient.symm
    | true =>
      have hneg := towardZero_neg ((m : ℚ) * 2 ^ q)
      simp only [truncate, value, if_true, hneg, hquotient]

/-- The 64-bit word of a finite number holds its integer part as far as it fits. -/
theorem toInt_toInt64 {x : Double} (h : x.isFinite = true) :
    x.toInt64.toInt = saturated (towardZero x.value) := by
  rw [← truncate_eq, ← toInt_int64Nearest]
  cases x with
  | nan | infinite => cases h
  | zero | finite => rfl

end Binary

namespace JsonNumber

/-- The rational number that a number of a tree stands for. -/
def value : JsonNumber → ℚ
  | int i _ => i
  | real x _ => x.value

/-- The 64-bit word of a number holds its integer part as far as it fits. -/
theorem toInt_truncate (n : JsonNumber) : n.truncate.toInt = saturated (towardZero n.value) := by
  cases n with
  | int i fits =>
    rw [value, towardZero_intCast]
    exact toInt_int64Nearest i
  | real x finite => exact Binary.toInt_toInt64 finite

end JsonNumber

end PrefStore
