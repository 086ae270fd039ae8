/-!
# Binary floating-point numbers

A non-zero finite number is `± m · 2 ^ q` with `m` odd, so a number has the same form in
every format that holds it. Widening a number therefore keeps its form, and two numbers of
one format are the same number exactly when they are equal as data. Comparison by value,
under which the two zeros agree and no NaN agrees with anything, is `Binary.same`.
-/

namespace PrefStore

/-- A power of two. -/
def twoPow (n : Nat) : Nat := Nat.pow 2 n

/-- A power of ten. -/
def tenPow (n : Nat) : Nat := Nat.pow 10 n

/-- A format keeps `precision` significant bits, no exponent below `least`, and nothing as
large as `2 ^ bound`. -/
structure Format where
  precision : Nat
  least : Int
  bound : Int
  deriving DecidableEq, Repr

namespace Format

/-- The 32-bit format. -/
def single : Format := ⟨24, -149, 128⟩

/-- The 64-bit format. -/
def double : Format := ⟨53, -1074, 1024⟩

/-- The format holds `m · 2 ^ q`, written with its odd significand. -/
def Holds (f : Format) (m : Nat) (q : Int) : Prop :=
  m % 2 = 1 ∧ m < twoPow f.precision ∧ f.least ≤ q ∧ (m.log2 : Int) + q < f.bound

instance (f : Format) (m : Nat) (q : Int) : Decidable (f.Holds m q) :=
  inferInstanceAs (Decidable (_ ∧ _ ∧ _ ∧ _))

/-- Whatever the 32-bit format holds, the 64-bit format holds in the same form. -/
theorem Holds.widen {m : Nat} {q : Int} (h : single.Holds m q) : double.Holds m q := by
  obtain ⟨odd, small, low, high⟩ := h
  exact ⟨odd, Nat.lt_of_lt_of_le small (by decide), Int.le_trans (by decide) low,
    Int.lt_trans high (by decide)⟩

end Format

/-- The numbers of a format. -/
inductive Binary (f : Format) where
  | nan
  | infinite (negative : Bool)
  | zero (negative : Bool)
  | finite (negative : Bool) (m : Nat) (q : Int) (held : f.Holds m q)
  deriving DecidableEq

/-- A 32-bit number. -/
abbrev Single := Binary .single

/-- A 64-bit number. -/
abbrev Double := Binary .double

namespace Binary

variable {f : Format}

/-- Zeros and numbers with a significand are finite. -/
def isFinite : Binary f → Bool
  | nan | infinite _ => false
  | zero _ | finite .. => true

/-- Comparison by value: the zeros agree, and a NaN agrees with nothing. -/
def same : Binary f → Binary f → Bool
  | nan, _ | _, nan => false
  | zero _, zero _ => true
  | a, b => a = b

/-- A 32-bit number is a 64-bit number of the same form. -/
def widen : Single → Double
  | nan => nan
  | infinite negative => infinite negative
  | zero negative => zero negative
  | finite negative m q held => finite negative m q held.widen

/-- Widening keeps a finite number finite and gives no other number that property. -/
@[simp] theorem isFinite_widen (x : Single) : x.widen.isFinite = x.isFinite := by
  cases x <;> rfl

/-- A number agrees with itself unless it is NaN. -/
theorem same_self_of_isFinite {x : Binary f} (h : x.isFinite = true) : x.same x = true := by
  cases x <;> simp_all [same, isFinite]

end Binary

end PrefStore
