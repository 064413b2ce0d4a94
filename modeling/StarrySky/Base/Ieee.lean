import Mathlib

/-! Binary interchange formats: the fields of a bit pattern and the rational it denotes. -/

namespace StarrySky.Base

structure BinaryFormat where
  exponentBits : ℕ
  fractionBits : ℕ

namespace BinaryFormat

def binary64 : BinaryFormat := { exponentBits := 11, fractionBits := 52 }

def binary32 : BinaryFormat := { exponentBits := 8, fractionBits := 23 }

variable (format : BinaryFormat)

def bias : ℕ := 2 ^ (format.exponentBits - 1) - 1

def sign (pattern : ℕ) : Bool := pattern / 2 ^ (format.exponentBits + format.fractionBits) % 2 = 1

def exponent (pattern : ℕ) : ℕ := pattern / 2 ^ format.fractionBits % 2 ^ format.exponentBits

def fraction (pattern : ℕ) : ℕ := pattern % 2 ^ format.fractionBits

def IsFinite (pattern : ℕ) : Prop := format.exponent pattern ≠ 2 ^ format.exponentBits - 1

instance (pattern : ℕ) : Decidable (format.IsFinite pattern) := inferInstanceAs (Decidable (_ ≠ _))

/-- The absolute value of a finite pattern; patterns with a zero exponent field are subnormal. -/
def magnitude (pattern : ℕ) : ℚ :=
  if format.exponent pattern = 0 then
    format.fraction pattern * 2 ^ (1 - (format.bias : ℤ) - format.fractionBits)
  else
    (2 ^ format.fractionBits + format.fraction pattern : ℕ) *
      2 ^ ((format.exponent pattern : ℤ) - format.bias - format.fractionBits)

def value (pattern : ℕ) : ℚ :=
  if format.sign pattern then -format.magnitude pattern else format.magnitude pattern

theorem magnitude_nonneg (pattern : ℕ) : 0 ≤ format.magnitude pattern := by
  rw [magnitude]
  split_ifs <;> positivity

theorem fraction_lt (pattern : ℕ) : format.fraction pattern < 2 ^ format.fractionBits :=
  Nat.mod_lt _ (Nat.two_pow_pos _)

theorem magnitude_lt_of_exponent_eq_zero {pattern : ℕ} (h : format.exponent pattern = 0) :
    format.magnitude pattern < 2 ^ (1 - (format.bias : ℤ)) := by
  have hfraction : (format.fraction pattern : ℚ) < 2 ^ format.fractionBits := by
    exact_mod_cast format.fraction_lt pattern
  have hsplit : (2 : ℚ) ^ (1 - (format.bias : ℤ)) =
      2 ^ format.fractionBits * 2 ^ (1 - (format.bias : ℤ) - format.fractionBits) := by
    rw [← zpow_natCast, ← zpow_add₀ (by norm_num)]
    congr 1
    ring
  rw [magnitude, if_pos h, hsplit]
  exact mul_lt_mul_of_pos_right hfraction (by positivity)

def pack (negative : Bool) (exponent fraction : ℕ) : ℕ :=
  (negative.toNat * 2 ^ format.exponentBits + exponent) * 2 ^ format.fractionBits + fraction

variable {format} {negative : Bool} {e f : ℕ}

theorem exponent_pack (he : e < 2 ^ format.exponentBits) (hf : f < 2 ^ format.fractionBits) :
    format.exponent (format.pack negative e f) = e := by
  have hpos := Nat.two_pow_pos format.fractionBits
  rw [exponent, pack, Nat.add_comm, Nat.add_mul_div_right _ _ hpos, Nat.div_eq_of_lt hf,
    Nat.zero_add, Nat.mul_comm, Nat.mul_add_mod, Nat.mod_eq_of_lt he]

theorem fraction_pack (hf : f < 2 ^ format.fractionBits) :
    format.fraction (format.pack negative e f) = f := by
  rw [fraction, pack, Nat.mul_comm, Nat.mul_add_mod, Nat.mod_eq_of_lt hf]

theorem sign_pack (he : e < 2 ^ format.exponentBits) (hf : f < 2 ^ format.fractionBits) :
    format.sign (format.pack negative e f) = negative := by
  have hpos := Nat.two_pow_pos format.fractionBits
  have hdiv : format.pack negative e f / 2 ^ (format.exponentBits + format.fractionBits) =
      negative.toNat := by
    rw [pack, Nat.add_comm format.exponentBits, pow_add, ← Nat.div_div_eq_div_mul, Nat.add_comm,
      Nat.add_mul_div_right _ _ hpos, Nat.div_eq_of_lt hf, Nat.zero_add, Nat.add_comm,
      Nat.add_mul_div_right _ _ (Nat.two_pow_pos _), Nat.div_eq_of_lt he, Nat.zero_add]
  rw [sign, hdiv]
  cases negative <;> rfl

theorem magnitude_pack (he : e < 2 ^ format.exponentBits) (hpos : e ≠ 0)
    (hf : f < 2 ^ format.fractionBits) :
    format.magnitude (format.pack negative e f) =
      (2 ^ format.fractionBits + f : ℕ) * 2 ^ ((e : ℤ) - format.bias - format.fractionBits) := by
  rw [magnitude, exponent_pack he hf, fraction_pack hf, if_neg hpos]

end BinaryFormat

end StarrySky.Base
