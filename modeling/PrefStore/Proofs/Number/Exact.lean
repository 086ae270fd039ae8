import Mathlib.Tactic.Linarith
import Mathlib.Tactic.Ring
import PrefStore.Number.Rounding

/-!
# Numbers that need no rounding

A number of a format, given as a quotient, rounds to itself. Narrowing a number after it was
widened therefore gives it back, sign of zero included, and narrowing never makes a NaN.
-/

namespace PrefStore

/-- Powers of two in the notation that arithmetic lemmas use. -/
theorem twoPow_eq (n : Nat) : twoPow n = 2 ^ n := rfl

/-- Factors of two raise the logarithm by their number. -/
theorem log2_mul_two_pow {m : Nat} (hm : m ≠ 0) (k : Nat) :
    (m * 2 ^ k).log2 = m.log2 + k := by
  induction k with
  | zero => simp
  | succ k ih =>
    have hne : m * 2 ^ k ≠ 0 := Nat.mul_ne_zero hm (by positivity)
    rw [show m * 2 ^ (k + 1) = 2 * (m * 2 ^ k) by ring, Nat.log2_two_mul hne, ih]
    omega

private theorem roundHalfEven_mul (a : Nat) {b : Nat} (hb : 0 < b) :
    roundHalfEven (a * b) b = a := by
  simp [roundHalfEven, Nat.mul_div_cancel a hb, hb]

/-- Every factor of two is taken out of an odd number times a power of two. -/
theorem oddPart_mul_two_pow {m : Nat} (hodd : m % 2 = 1) (k : Nat) :
    ∀ (fuel : Nat) (q : Int), k < fuel → oddPart fuel (m * 2 ^ k) q = (m, q + k) := by
  induction k with
  | zero =>
    intro fuel q hk
    obtain ⟨fuel, rfl⟩ := Nat.exists_eq_succ_of_ne_zero (Nat.ne_of_gt hk)
    simp [oddPart, hodd]
  | succ k ih =>
    intro fuel q hk
    obtain ⟨fuel, rfl⟩ := Nat.exists_eq_succ_of_ne_zero (Nat.ne_of_gt (Nat.zero_lt_of_lt hk))
    have heven : m * 2 ^ (k + 1) % 2 = 0 := by
      rw [show m * 2 ^ (k + 1) = m * 2 ^ k * 2 by ring]
      exact Nat.mul_mod_left _ _
    have hhalf : m * 2 ^ (k + 1) / 2 = m * 2 ^ k := by
      rw [show m * 2 ^ (k + 1) = m * 2 ^ k * 2 by ring]
      exact Nat.mul_div_cancel _ (by decide)
    rw [oddPart, if_pos heven, hhalf, ih fuel (q + 1) (by omega)]
    congr 1
    push_cast
    ring

private theorem logRatio_scaled {m : Nat} (hm : m ≠ 0) (q : Int) :
    logRatio (m * 2 ^ q.toNat) (2 ^ (-q).toNat) = m.log2 + q := by
  have hnum := log2_mul_two_pow hm q.toNat
  have hguess : ((m * 2 ^ q.toNat).log2 : Int) - ((2 ^ (-q).toNat).log2 : Nat) = m.log2 + q := by
    rw [hnum, Nat.log2_two_pow]
    omega
  have hexp : (-q).toNat + (m.log2 + q : Int).toNat =
      m.log2 + (q.toNat + (-(m.log2 + q) : Int).toNat) := by omega
  have hreach : 2 ^ (-q).toNat * twoPow (m.log2 + q : Int).toNat ≤
      m * 2 ^ q.toNat * twoPow (-(m.log2 + q) : Int).toNat := by
    rw [twoPow_eq, twoPow_eq, mul_assoc, ← pow_add, ← pow_add, hexp, pow_add]
    exact Nat.mul_le_mul_right _ (Nat.log2_self_le hm)
  simp only [logRatio, hguess, if_pos hreach]

namespace Binary

/-- A number that a format holds rounds to itself. -/
theorem ofRatio_of_holds {f : Format} {m : Nat} {q : Int} (held : f.Holds m q)
    (negative : Bool) :
    ofRatio f negative (m * twoPow q.toNat) (twoPow (-q).toNat) = finite negative m q held := by
  obtain ⟨hodd, hsmall, hlow, hhigh⟩ := id held
  have hm : m ≠ 0 := by rintro rfl; simp at hodd
  have hlog : m.log2 < f.precision := (Nat.log2_lt hm).2 hsmall
  have hnum : m * twoPow q.toNat ≠ 0 := Nat.mul_ne_zero hm (by rw [twoPow_eq]; positivity)
  have hlogRatio : logRatio (m * twoPow q.toNat) (twoPow (-q).toNat) = m.log2 + q :=
    logRatio_scaled hm q
  rw [ofRatio, if_neg hnum, hlogRatio]
  -- The unit of the last place divides the number, so the quotient in units is whole.
  generalize hunit : max f.least ((m.log2 : Int) + q - (f.precision - 1)) = u
  have hu : u ≤ q := by omega
  obtain ⟨k, hk⟩ := Int.eq_ofNat_of_zero_le (show 0 ≤ q - u by omega)
  have hwhole : m * twoPow q.toNat * twoPow (-u).toNat =
      m * 2 ^ k * (twoPow (-q).toNat * twoPow u.toNat) := by
    simp only [twoPow_eq]
    rw [mul_assoc, mul_assoc, ← pow_add, ← pow_add, ← pow_add]
    congr 2
    omega
  have hpos : 0 < twoPow (-q).toNat * twoPow u.toNat := by
    simp only [twoPow_eq]
    positivity
  dsimp only
  rw [hwhole, roundHalfEven_mul _ hpos, ofScaled,
    if_neg (Nat.mul_ne_zero hm (by positivity))]
  have hfuel : k < (m * 2 ^ k).log2 + 1 := by rw [log2_mul_two_pow hm]; omega
  have hpart : oddPart ((m * 2 ^ k).log2 + 1) (m * 2 ^ k) u = (m, q) := by
    rw [oddPart_mul_two_pow hodd k _ u hfuel]
    congr 1
    omega
  simp only [hpart, dif_pos held]

@[simp] theorem narrow_widen (x : Single) : x.widen.narrow = x := by
  cases x with
  | nan | infinite | zero => rfl
  | finite negative m q held => exact ofRatio_of_holds held negative

/-- Rounding a quotient makes no NaN. -/
theorem ofRatio_ne_nan (f : Format) (negative : Bool) (num den : Nat) :
    ofRatio f negative num den ≠ nan := by
  unfold ofRatio
  split
  · simp
  · dsimp only
    unfold ofScaled
    split
    · simp
    · dsimp only
      split <;> simp

/-- Narrowing makes no NaN of a number. -/
theorem narrow_ne_nan {x : Double} (h : x ≠ nan) : x.narrow ≠ nan := by
  cases x with
  | nan => exact absurd rfl h
  | infinite | zero => simp [narrow]
  | finite => exact ofRatio_ne_nan _ _ _ _

/-- Exactly a NaN does not agree with itself. -/
theorem same_self_iff {f : Format} {x : Binary f} : x.same x = true ↔ x ≠ nan := by
  cases x <;> simp [same]

end Binary

end PrefStore
