import Mathlib.Data.Nat.Factorization.Basic
import Mathlib.Tactic.Positivity
import PrefStore.Proofs.Number.Value

/-!
# Numbers that are too large for 32 bits

A quotient is rounded to a finite number of the 32-bit format exactly if it lies below the middle
between the greatest number of the format and the power of two after it. So a finite number of the
64-bit format may become infinite when it is narrowed, and an integer of 64 bits never does.
-/

namespace PrefStore

/-! ## Rounding a quotient -/

/-- Below the middle between a number and the one before it, in natural numbers. -/
private theorem lt_middle_iff {num den bound : Nat} (hden : 0 < den) :
    (num / den : ℚ) < bound - 1 / 2 ↔ 2 * num + den < 2 * bound * den := by
  have hpos : (0 : ℚ) < den := by exact_mod_cast hden
  rw [div_lt_iff₀ hpos, ← Nat.cast_lt (α := ℚ)]
  push_cast
  constructor <;> intro h <;> linarith

private theorem roundHalfEven_lt {num den bound : Nat} (hden : 0 < den)
    (h : (num / den : ℚ) < bound - 1 / 2) : roundHalfEven num den < bound := by
  rw [lt_middle_iff hden] at h
  have hnum := Nat.div_add_mod num den
  have hbound : num / den < bound := by
    have htwice : 2 * bound * den = 2 * (bound * den) := mul_assoc _ _ _
    rw [Nat.div_lt_iff_lt_mul hden]
    omega
  have hlast : num / den + 1 = bound → 2 * (num % den) < den := by
    rintro rfl
    have htwice : 2 * (num / den + 1) * den = 2 * (den * (num / den)) + 2 * den := by ring
    omega
  unfold roundHalfEven
  dsimp only
  split_ifs <;> omega

private theorem roundHalfEven_lt_iff {num den bound : Nat} (hden : 0 < den)
    (heven : bound % 2 = 0) : roundHalfEven num den < bound ↔ (num / den : ℚ) < bound - 1 / 2 := by
  refine ⟨fun hround => ?_, roundHalfEven_lt hden⟩
  by_contra h
  rw [lt_middle_iff hden, not_lt] at h
  have hnum := Nat.div_add_mod num den
  have hrest := Nat.mod_lt num hden
  have hbound : bound ≤ num / den + 1 := by
    by_contra hlow
    have hprod : (num / den + 2) * den ≤ bound * den := Nat.mul_le_mul_right den (by omega)
    have htwice : 2 * bound * den = 2 * (bound * den) := mul_assoc _ _ _
    have hsum : (num / den + 2) * den = den * (num / den) + 2 * den := by ring
    omega
  have hlast : num / den + 1 = bound → den ≤ 2 * (num % den) := by
    rintro rfl
    have htwice : 2 * (num / den + 1) * den = 2 * (den * (num / den)) + 2 * den := by ring
    omega
  unfold roundHalfEven at hround
  dsimp only at hround
  split_ifs at hround <;> omega

private theorem logRatio_bounds {num den : Nat} (hnum : 0 < num) (hden : 0 < den) :
    (2 : ℚ) ^ logRatio num den ≤ num / den ∧ (num / den : ℚ) < 2 ^ (logRatio num den + 1) := by
  have hlow {n : Nat} (hn : 0 < n) : (2 : ℚ) ^ (n.log2 : ℤ) ≤ n := by
    rw [zpow_natCast]
    exact_mod_cast Nat.log2_self_le hn.ne'
  have hhigh {n : Nat} : (n : ℚ) < 2 ^ ((n.log2 : ℤ) + 1) := by
    have hlt : n < 2 ^ (n.log2 + 1) := Nat.lt_log2_self
    exact_mod_cast hlt
  have hreach (k : ℤ) : den * twoPow k.toNat ≤ num * twoPow (-k).toNat ↔
      (2 : ℚ) ^ k ≤ num / den := by
    have hpow := Binary.scaled_eq_div 1 k
    rw [Nat.cast_one, one_mul, one_mul] at hpow
    rw [hpow, div_le_div_iff₀ (by positivity) (by positivity)]
    rw [twoPow_eq, twoPow_eq, mul_comm den]
    exact_mod_cast Iff.rfl
  have hpos : (0 : ℚ) < den := by exact_mod_cast hden
  have hguess : (2 : ℚ) ^ ((num.log2 : ℤ) - den.log2 - 1) ≤ num / den := by
    rw [le_div_iff₀ hpos]
    calc (2 : ℚ) ^ ((num.log2 : ℤ) - den.log2 - 1) * den
        ≤ 2 ^ ((num.log2 : ℤ) - den.log2 - 1) * 2 ^ ((den.log2 : ℤ) + 1) := by
          gcongr
          exact hhigh.le
      _ = 2 ^ (num.log2 : ℤ) := by
          rw [← zpow_add₀ (by norm_num)]
          congr 1
          ring
      _ ≤ num := hlow hnum
  have hnext : (num / den : ℚ) < 2 ^ ((num.log2 : ℤ) - den.log2 + 1) := by
    rw [div_lt_iff₀ hpos]
    calc (num : ℚ) < 2 ^ ((num.log2 : ℤ) + 1) := hhigh
      _ = 2 ^ ((num.log2 : ℤ) - den.log2 + 1) * 2 ^ (den.log2 : ℤ) := by
          rw [← zpow_add₀ (by norm_num)]
          congr 1
          ring
      _ ≤ 2 ^ ((num.log2 : ℤ) - den.log2 + 1) * den := by
          gcongr
          exact hlow hden
  unfold logRatio
  dsimp only
  split
  · next h => exact ⟨(hreach _).1 h, hnext⟩
  · next h =>
    rw [hreach, not_le] at h
    exact ⟨hguess, by simpa using h⟩

namespace Binary

/-- A significand of 24 bits at most, with an exponent that is not too small, is finite in the
32-bit format exactly if it is zero or its first bit lies below the bound of the format. -/
theorem isFinite_ofScaled_single {m : Nat} (hm : m ≤ 2 ^ 24) {q : Int} (hq : -149 ≤ q)
    (negative : Bool) :
    (ofScaled .single negative m q).isFinite = true ↔ m = 0 ∨ (m.log2 : Int) + q < 128 := by
  unfold ofScaled
  split
  · next hzero => simp [hzero, isFinite]
  · next hne =>
    obtain ⟨k, odd, hodd, rfl⟩ := Nat.exists_eq_two_pow_mul_odd hne
    have hodd' : odd % 2 = 1 := Nat.odd_iff.1 hodd
    have hpos : odd ≠ 0 := by omega
    rw [mul_comm] at hm hne ⊢
    have hlog := log2_mul_two_pow hpos k
    have hpart : oddPart ((odd * 2 ^ k).log2 + 1) (odd * 2 ^ k) q = (odd, q + k) :=
      oddPart_mul_two_pow hodd' k _ q (by omega)
    -- An odd number of at most `2 ^ 24` is less than it.
    have hsmall : odd < twoPow 24 := by
      have hle : odd ≤ odd * 2 ^ k := Nat.le_mul_of_pos_right odd (by positivity)
      have heven : (2 ^ 24 : Nat) % 2 = 0 := rfl
      rw [twoPow_eq]
      omega
    simp only [hpart]
    split
    · next held =>
      have hbound : (odd.log2 : Int) + (q + k) < 128 := held.2.2.2
      simp only [isFinite, true_iff]
      right
      omega
    · next hfar =>
      simp only [isFinite, Bool.false_eq_true, false_iff, not_or]
      refine ⟨hne, fun hlt => hfar ⟨hodd', hsmall, ?_, ?_⟩⟩
      · show (-149 : Int) ≤ q + k
        omega
      · show (odd.log2 : Int) + (q + k) < 128
        omega

/-- The least magnitude that becomes infinite in the 32-bit format: it lies in the middle between
the greatest number of the format and the power of two after it. -/
def overflow : ℚ := 2 ^ 128 - 2 ^ 103

/-- A significand has its first bit below the bound of the format exactly if the significand lies
below a power of two. -/
private theorem eq_zero_or_log2_lt_iff (m : Nat) {q : Int} (hq : q < 128) :
    m = 0 ∨ (m.log2 : Int) + q < 128 ↔ m < 2 ^ (128 - q).toNat := by
  rcases eq_or_ne m 0 with rfl | hne
  · simp
  · rw [← Nat.log2_lt hne]
    simp only [hne, false_or]
    omega

/-- A quotient in units of `2 ^ q`, which are moved to the numerator or to the denominator. -/
private theorem quotient_in_units (num den : Nat) (q : Int) :
    ((num * twoPow (-q).toNat : Nat) / (den * twoPow q.toNat : Nat) : ℚ) = num / den / 2 ^ q := by
  have hpow := scaled_eq_div 1 q
  rw [Nat.cast_one, one_mul, one_mul] at hpow
  rw [hpow, twoPow_eq, twoPow_eq]
  push_cast
  field_simp

/-- A quotient in units of `2 ^ q` is rounded to less than an even number just where it lies below
the middle between that many units and one less. -/
private theorem rounded_in_units_lt_iff (num : Nat) {den bound : Nat} (hden : 0 < den)
    (heven : bound % 2 = 0) (q : Int) :
    roundHalfEven (num * twoPow (-q).toNat) (den * twoPow q.toNat) < bound ↔
      (num / den : ℚ) < bound * 2 ^ q - 2 ^ (q - 1) := by
  have hunits : 0 < den * twoPow q.toNat :=
    Nat.mul_pos hden (by rw [twoPow_eq]; positivity)
  rw [roundHalfEven_lt_iff hunits heven, quotient_in_units, div_lt_iff₀ (by positivity),
    zpow_sub₀ (by norm_num)]
  ring_nf

/-- A quotient below `2 ^ (24 + q)` is rounded to a significand of 24 bits, or to the power of two
after these, in units of `2 ^ q`. -/
private theorem rounded_in_units_le (num : Nat) {den : Nat} (hden : 0 < den) {q : Int}
    (h : (num / den : ℚ) < 2 ^ (24 + q)) :
    roundHalfEven (num * twoPow (-q).toNat) (den * twoPow q.toNat) ≤ 2 ^ 24 := by
  have hunits : 0 < den * twoPow q.toNat :=
    Nat.mul_pos hden (by rw [twoPow_eq]; positivity)
  rw [← Nat.lt_succ_iff]
  refine roundHalfEven_lt hunits ?_
  rw [quotient_in_units, div_lt_iff₀ (by positivity)]
  calc (num / den : ℚ) < 2 ^ (24 + q) := h
    _ = 2 ^ 24 * 2 ^ q := by
        rw [zpow_add₀ (by norm_num)]
        norm_cast
    _ ≤ _ := by
        gcongr
        norm_num

/-- The middle below `2 ^ 128` is the overflow for the numbers right below that power, and for the
others it does not matter where the middle lies. -/
private theorem lt_middle_iff_overflow {x : ℚ} {k q : ℤ} (hlow : 2 ^ k ≤ x)
    (hhigh : x < 2 ^ (k + 1)) (hq : max (-149) (k - 23) = q) (hfits : q < 128) :
    x < 2 ^ 128 - 2 ^ (q - 1) ↔ x < overflow := by
  have hgrows {i j : ℤ} (h : i ≤ j) : (2 : ℚ) ^ i ≤ 2 ^ j := zpow_le_zpow_right₀ (by norm_num) h
  rw [overflow]
  rcases lt_trichotomy k 127 with hsmall | rfl | hlarge
  · have hvalue : x < 2 ^ (127 : ℤ) := hhigh.trans_le (hgrows (by omega))
    have hmiddle : (2 : ℚ) ^ (q - 1) ≤ 2 ^ (126 : ℤ) := hgrows (by omega)
    norm_num at hvalue hmiddle ⊢
    constructor <;> intro <;> linarith
  · obtain rfl : q = 104 := by omega
    norm_num
  · have hvalue : (2 : ℚ) ^ (128 : ℤ) ≤ x := (hgrows (by omega)).trans hlow
    have hmiddle : (0 : ℚ) < 2 ^ (q - 1) := by positivity
    norm_num at hvalue ⊢
    constructor <;> intro <;> linarith

/-- Where the unit itself is out of reach a quotient is no less than the overflow, and it is not
rounded to zero or one. -/
private theorem not_lt_of_far {x : ℚ} {k q : ℤ} (hlow : 2 ^ k ≤ x) (hq : max (-149) (k - 23) = q)
    (hfar : 128 ≤ q) : ¬x < 2 * 2 ^ q - 2 ^ (q - 1) ∧ ¬x < overflow := by
  have hgrows {i j : ℤ} (h : i ≤ j) : (2 : ℚ) ^ i ≤ 2 ^ j := zpow_le_zpow_right₀ (by norm_num) h
  have hbound : (2 : ℚ) ^ (128 : ℤ) ≤ x := (hgrows (by omega)).trans hlow
  have hunits : (2 : ℚ) ^ (q + 1) ≤ x := (hgrows (by omega)).trans hlow
  have hmiddle : (0 : ℚ) < 2 ^ (q - 1) := by positivity
  rw [zpow_add₀ (by norm_num)] at hunits
  rw [overflow]
  norm_num at hbound hunits ⊢
  constructor <;> linarith

/-- A quotient is rounded to a finite number of the 32-bit format exactly if it lies below the
overflow. -/
theorem isFinite_ofRatio_single (num : Nat) {den : Nat} (hden : 0 < den) (negative : Bool) :
    (ofRatio .single negative num den).isFinite = true ↔ (num / den : ℚ) < overflow := by
  rcases Nat.eq_zero_or_pos num with rfl | hnum
  · simp [ofRatio, isFinite, overflow]
    norm_num
  obtain ⟨hlow, hhigh⟩ := logRatio_bounds hnum hden
  rw [ofRatio, if_neg hnum.ne']
  dsimp only
  generalize logRatio num den = k at hlow hhigh ⊢
  have hunit : max Format.single.least (k - (Format.single.precision - 1 : Int)) =
      max (-149) (k - 23) := rfl
  rw [hunit]
  generalize hq : max (-149) (k - 23) = q
  have hmost : (num / den : ℚ) < 2 ^ (24 + q) :=
    hhigh.trans_le (zpow_le_zpow_right₀ (by norm_num) (by omega))
  rw [isFinite_ofScaled_single (rounded_in_units_le num hden hmost) (by omega)]
  rcases lt_or_ge q 128 with hfits | hfar
  · have heven : 2 ^ (128 - q).toNat % 2 = 0 := by
      obtain ⟨e, he⟩ : ∃ e, (128 - q).toNat = e + 1 := ⟨(128 - q).toNat - 1, by omega⟩
      rw [he, pow_succ]
      exact Nat.mul_mod_left _ _
    have hpower : ((2 ^ (128 - q).toNat : Nat) : ℚ) * 2 ^ q = 2 ^ 128 := by
      have hnat : ((2 ^ (128 - q).toNat : Nat) : ℚ) = 2 ^ (128 - q) := by
        rw [Nat.cast_pow, Nat.cast_ofNat, ← zpow_natCast, Int.toNat_of_nonneg (by omega)]
      rw [hnat, ← zpow_add₀ (by norm_num), sub_add_cancel]
      norm_cast
    rw [eq_zero_or_log2_lt_iff _ hfits, rounded_in_units_lt_iff num hden heven, hpower]
    exact lt_middle_iff_overflow hlow hhigh hq hfits
  · obtain ⟨hunits, hbound⟩ := not_lt_of_far hlow hq hfar
    have htwo : ¬roundHalfEven (num * twoPow (-q).toNat) (den * twoPow q.toNat) < 2 := by
      rw [rounded_in_units_lt_iff num hden (by decide)]
      exact_mod_cast hunits
    refine iff_of_false ?_ hbound
    omega

/-- A number is narrowed to a finite number exactly if it is finite and its magnitude lies below the
overflow. -/
theorem isFinite_narrow_iff {x : Double} :
    x.narrow.isFinite = true ↔ x.isFinite = true ∧ |x.value| < overflow := by
  cases x with
  | nan | infinite => simp [narrow, isFinite]
  | zero =>
    simp only [narrow, isFinite, value, abs_zero, true_and, true_iff, overflow]
    norm_num
  | finite negative m q held =>
    have hvalue : |value (finite negative m q held)| = m * 2 ^ q := by
      have hnonneg : (0 : ℚ) ≤ m * 2 ^ q := by positivity
      cases negative <;> simp [value, abs_of_nonneg hnonneg]
    have hden : 0 < twoPow (-q).toNat := by
      rw [twoPow_eq]
      positivity
    rw [hvalue, scaled_eq_div, narrow, isFinite_ofRatio_single _ hden]
    simp only [isFinite, true_and]
    rfl

/-- An integer of 64 bits is a finite number of 32 bits. -/
theorem isFinite_ofInt_single (i : Int64) : (ofInt .single i.toInt).isFinite = true := by
  have hlow := i.le_toInt
  have hhigh := i.toInt_lt
  have habs : (i.toInt.natAbs : ℚ) ≤ 2 ^ 63 := by
    have hnat : i.toInt.natAbs ≤ 2 ^ 63 := by omega
    exact_mod_cast hnat
  rw [ofInt, isFinite_ofRatio_single _ Nat.one_pos, overflow, Nat.cast_one, div_one]
  refine habs.trans_lt ?_
  norm_num

end Binary

end PrefStore
