import StarrySky.Base.Ieee
import StarrySky.Base.Overflow
import StarrySky.Base.Rounding
import StarrySky.Core.Commands

/-! Positions in hundredths: the integer arithmetic of `mc_double_to_fixed2` and
`mc_float_to_fixed2` rounds the exact value of every bit pattern. -/

namespace StarrySky.Core
open StarrySky.Base

def mcRoundShiftU64Checked (value : UInt64) (shift : ℕ) : InRange UInt64 :=
  if shift = 0 then .ok value
  else if shift ≥ 64 then .ok 0
  else
    (U64.shr value shift).bind fun quotient =>
    (U64.shl 1 shift).bind fun bit =>
    (U64.sub bit 1).bind fun mask =>
    (U64.shl 1 (shift - 1)).bind fun half =>
      if value &&& mask > half ∨ (value &&& mask = half ∧ quotient &&& 1 ≠ 0) then
        U64.add quotient 1
      else .ok quotient

def mcBinaryToFixed2Checked (negative : Bool) (exponent : ℤ) (mantissa : UInt64)
    (mantissaBits : ℕ) : InRange (Option (Bool × UInt32)) :=
  let shift := exponent - mantissaBits
  if mantissa > 0xffffffffffffffff / 100 then .ok none
  else
    (U64.shl mantissa 6).bind fun m64 =>
    (U64.shl mantissa 5).bind fun m32 =>
    (U64.shl mantissa 2).bind fun m4 =>
    (U64.add m64 m32).bind fun m96 =>
    (U64.add m96 m4).bind fun base =>
    (if shift ≥ 0 then
        if shift ≥ 64 then .ok none
        else
          (U64.shr mcCommandFixed2MaxScaled shift.toNat).bind fun limit =>
            if base > limit then .ok none else (U64.shl base shift.toNat).map some
      else (mcRoundShiftU64Checked base (-shift).toNat).map some).bind fun scaled =>
      match scaled with
      | none => .ok none
      | some scaled =>
        if scaled > mcCommandFixed2MaxScaled then .ok none
        else .ok (some (negative && scaled ≠ 0, scaled.toUInt32))

theorem toNat_and_one (a : UInt64) : (a &&& 1 ≠ 0) ↔ a.toNat % 2 = 1 := by
  rw [ne_eq, ← UInt64.toNat_inj, UInt64.toNat_and]
  have hone := Nat.and_two_pow_sub_one_eq_mod a.toNat 1
  simp only [pow_one, Nat.add_one_sub_one] at hone
  show ¬a.toNat &&& 1 = 0 ↔ _
  rw [hone]
  omega

theorem toNat_one_shiftLeft {n : ℕ} (hn : n < 64) : ((1 : UInt64) <<< UInt64.ofNat n).toNat = 2 ^ n := by
  rw [U64.toNat_shiftLeft hn (by simpa using Nat.pow_lt_pow_right (by decide) hn)]
  exact Nat.one_mul _

theorem toNat_and_mask (value : UInt64) {shift : ℕ} (hshift : shift < 64) :
    (value &&& ((1 <<< UInt64.ofNat shift) - 1)).toNat = value.toNat % 2 ^ shift := by
  have hbit := toNat_one_shiftLeft hshift
  have hle : (1 : UInt64) ≤ 1 <<< UInt64.ofNat shift := by
    rw [UInt64.le_iff_toNat_le, hbit]
    exact Nat.one_le_two_pow
  rw [UInt64.toNat_and, UInt64.toNat_sub_of_le _ _ hle, hbit]
  exact Nat.and_two_pow_sub_one_eq_mod _ _

theorem toNat_quotient_add_one (value : UInt64) {shift : ℕ} (hpos : shift ≠ 0) (hshift : shift < 64) :
    (value >>> UInt64.ofNat shift).toNat + 1 < 2 ^ 64 := by
  have htwo : 2 ^ 1 ≤ 2 ^ shift := Nat.pow_le_pow_right (by decide) (by omega)
  have hhalf : value.toNat / 2 ^ shift ≤ value.toNat / 2 ^ 1 := Nat.div_le_div_left htwo (by decide)
  have hvalue := value.toNat_lt
  rw [U64.toNat_shiftRight value hshift]
  omega

theorem mcRoundShiftU64Checked_eq (value : UInt64) (shift : ℕ) :
    mcRoundShiftU64Checked value shift = .ok (mcRoundShiftU64 value shift) := by
  rw [mcRoundShiftU64Checked, mcRoundShiftU64]
  split_ifs with hzero hlarge
  · rfl
  · rfl
  · have hshift : shift < 64 := Nat.lt_of_not_le hlarge
    have hpow : ∀ n, n < 64 → (1 : UInt64).toNat * 2 ^ n < 2 ^ 64 := by
      intro n hn
      simpa using Nat.pow_lt_pow_right (by decide : 1 < 2) hn
    have hle : (1 : UInt64) ≤ 1 <<< UInt64.ofNat shift := by
      rw [UInt64.le_iff_toNat_le, toNat_one_shiftLeft hshift]
      exact Nat.one_le_two_pow
    rw [U64.shr_of_lt value hshift, U64.shl_of_lt hshift (hpow _ hshift),
      U64.shl_of_lt (by omega : shift - 1 < 64) (hpow _ (by omega))]
    show (U64.sub _ 1).bind _ = _
    rw [U64.sub, if_pos hle]
    show (if _ then U64.add _ 1 else Except.ok _) = _
    have hadd : (value >>> UInt64.ofNat shift).toNat + (1 : UInt64).toNat < 2 ^ 64 :=
      toNat_quotient_add_one value hzero hshift
    rw [U64.add, fits_of_lt hadd]
    dsimp only
    split_ifs <;> rfl

theorem toNat_mcRoundShiftU64 {value : UInt64} (hvalue : value.toNat ≤ 2 ^ 63) (shift : ℕ) :
    (mcRoundShiftU64 value shift).toNat = roundShift value.toNat shift := by
  rw [mcRoundShiftU64]
  split_ifs with hzero hlarge
  · simp [roundShift, hzero, Nat.mod_one]
  · -- at most half of the last place is left
    have hpow : 2 ^ 64 ≤ 2 ^ shift := Nat.pow_le_pow_right (by decide) hlarge
    rw [roundShift, Nat.mod_eq_of_lt (by omega), Nat.div_eq_of_lt (by omega)]
    rw [if_neg (by omega)]
    rfl
  · have hshift : shift < 64 := Nat.lt_of_not_le hlarge
    have hhalf : 2 ^ shift = 2 * 2 ^ (shift - 1) := by
      rw [← pow_succ', Nat.sub_add_cancel (by omega)]
    dsimp only
    rw [roundShift, ← U64.toNat_shiftRight value hshift]
    simp only [gt_iff_lt, UInt64.lt_iff_toNat_lt, ← UInt64.toNat_inj, toNat_and_one,
      toNat_and_mask value hshift, toNat_one_shiftLeft (by omega : shift - 1 < 64), hhalf,
      Nat.mul_lt_mul_left (by decide : 0 < 2), Nat.mul_right_inj (by decide : 2 ≠ 0)]
    split_ifs with hup
    · rw [UInt64.toNat_add]
      exact Nat.mod_eq_of_lt (toNat_quotient_add_one value hzero hshift)
    · rfl

def hundredfold (mantissa : UInt64) : UInt64 := (mantissa <<< 6) + (mantissa <<< 5) + (mantissa <<< 2)

theorem toNat_hundredfold {mantissa : UInt64} (h : mantissa ≤ 0xffffffffffffffff / 100) :
    (mantissa <<< 6).toNat = mantissa.toNat * 64 ∧ (mantissa <<< 5).toNat = mantissa.toNat * 32 ∧
      (mantissa <<< 2).toNat = mantissa.toNat * 4 ∧
      ((mantissa <<< 6) + (mantissa <<< 5)).toNat = mantissa.toNat * 96 ∧
      (hundredfold mantissa).toNat = mantissa.toNat * 100 ∧ mantissa.toNat * 100 < 2 ^ 64 := by
  have hle : mantissa.toNat ≤ 184467440737095516 := h
  have h64 : (mantissa <<< 6).toNat = mantissa.toNat * 64 :=
    U64.toNat_shiftLeft (n := 6) (by decide) (by omega)
  have h32 : (mantissa <<< 5).toNat = mantissa.toNat * 32 :=
    U64.toNat_shiftLeft (n := 5) (by decide) (by omega)
  have h4 : (mantissa <<< 2).toNat = mantissa.toNat * 4 :=
    U64.toNat_shiftLeft (n := 2) (by decide) (by omega)
  have h96 : ((mantissa <<< 6) + (mantissa <<< 5)).toNat = mantissa.toNat * 96 := by
    rw [UInt64.toNat_add, h64, h32]
    omega
  have h100 : (hundredfold mantissa).toNat = mantissa.toNat * 100 := by
    rw [hundredfold, UInt64.toNat_add, h96, h4]
    omega
  exact ⟨h64, h32, h4, h96, h100, by omega⟩

theorem mcBinaryToFixed2Checked_eq (negative : Bool) (exponent : ℤ) (mantissa : UInt64)
    (mantissaBits : ℕ) :
    mcBinaryToFixed2Checked negative exponent mantissa mantissaBits =
      .ok (mcBinaryToFixed2 negative exponent mantissa mantissaBits) := by
  rw [mcBinaryToFixed2Checked, mcBinaryToFixed2]
  dsimp only
  by_cases hlarge : mantissa > 0xffffffffffffffff / 100
  · rw [if_pos hlarge, if_pos hlarge]
  rw [if_neg hlarge, if_neg hlarge]
  obtain ⟨h64, h32, h4, h96, h100, hfits⟩ := toNat_hundredfold (UInt64.not_lt.mp hlarge)
  rw [U64.shl_of_lt (by decide) (by omega), U64.shl_of_lt (by decide) (by omega),
    U64.shl_of_lt (by decide) (by omega)]
  show (U64.add (mantissa <<< 6) (mantissa <<< 5)).bind _ = _
  rw [U64.add, fits_of_lt (by omega)]
  show (U64.add ((mantissa <<< 6) + (mantissa <<< 5)) (mantissa <<< 2)).bind _ = _
  rw [U64.add, fits_of_lt (by omega)]
  change (if exponent - mantissaBits ≥ 0 then _ else _ : InRange (Option UInt64)).bind _ = _
  change _ = Except.ok (match (if exponent - mantissaBits ≥ 0 then _ else _ : Option UInt64) with
    | none => none
    | some scaled => _)
  rw [← hundredfold]
  generalize exponent - mantissaBits = shift
  by_cases hshift : shift ≥ 0
  · rw [if_pos hshift, if_pos hshift]
    by_cases hfar : shift ≥ 64
    · rw [if_pos hfar, if_pos (.inl hfar)]
      rfl
    have hlt : shift.toNat < 64 := by omega
    rw [if_neg hfar, U64.shr_of_lt _ hlt]
    change (if hundredfold mantissa > _ then _ else _ : InRange (Option UInt64)).bind _ = _
    by_cases hover : hundredfold mantissa > mcCommandFixed2MaxScaled >>> UInt64.ofNat shift.toNat
    · rw [if_pos hover, if_pos (.inr hover)]
      rfl
    rw [if_neg hover, if_neg (not_or.mpr ⟨hfar, hover⟩)]
    have hroom : (hundredfold mantissa).toNat * 2 ^ shift.toNat ≤ 3000000000 := by
      have hle := UInt64.le_iff_toNat_le.mp (UInt64.not_lt.mp hover)
      rw [U64.toNat_shiftRight _ hlt] at hle
      exact (Nat.le_div_iff_mul_le (Nat.two_pow_pos _)).mp hle
    rw [U64.shl_of_lt hlt (by omega)]
    change (if _ > mcCommandFixed2MaxScaled then Except.ok none else Except.ok _) = _
    dsimp only
    split_ifs <;> rfl
  · rw [if_neg hshift, if_neg hshift, mcRoundShiftU64Checked_eq]
    change (if _ > mcCommandFixed2MaxScaled then Except.ok none else Except.ok _) = _
    dsimp only
    split_ifs <;> rfl

/-- What the display of a value stands for: its hundredths, rounded, within the limit. -/
def exactFixed2 (negative : Bool) (magnitude : ℚ) : Option (Bool × UInt32) :=
  let hundredths := roundHalfEven (100 * magnitude)
  if hundredths ≤ 3000000000 then some (negative && hundredths ≠ 0, UInt32.ofNat hundredths.toNat)
  else none

theorem exactFixed2_of_round (negative : Bool) {magnitude : ℚ} {scaled : UInt64}
    (h : roundHalfEven (100 * magnitude) = (scaled.toNat : ℤ)) :
    (if scaled > mcCommandFixed2MaxScaled then none
      else some (negative && scaled ≠ 0, scaled.toUInt32)) = exactFixed2 negative magnitude := by
  have hmax : scaled > mcCommandFixed2MaxScaled ↔ ¬(scaled.toNat : ℤ) ≤ 3000000000 := by
    rw [gt_iff_lt, UInt64.lt_iff_toNat_lt, not_le]
    exact Nat.cast_lt.symm
  have hzero : scaled ≠ 0 ↔ (scaled.toNat : ℤ) ≠ 0 := by
    rw [ne_eq, ne_eq, ← UInt64.toNat_inj, Nat.cast_eq_zero]
    rfl
  rw [exactFixed2, h]
  simp only [hmax, hzero, Int.toNat_natCast]
  by_cases hle : (scaled.toNat : ℤ) ≤ 3000000000
  · rw [if_neg (not_not.mpr hle), if_pos hle]
    rfl
  · rw [if_pos hle, if_neg hle]

theorem mcBinaryToFixed2_eq (negative : Bool) (exponent : ℤ) {mantissa : UInt64}
    (mantissaBits : ℕ) (hpos : 0 < mantissa.toNat) (hmantissa : mantissa.toNat ≤ 2 ^ 53) :
    mcBinaryToFixed2 negative exponent mantissa mantissaBits =
      exactFixed2 negative (mantissa.toNat * 2 ^ (exponent - mantissaBits)) := by
  have hsmall : mantissa ≤ 0xffffffffffffffff / 100 := by
    rw [UInt64.le_iff_toNat_le]
    show mantissa.toNat ≤ 184467440737095516
    omega
  obtain ⟨_, _, _, _, h100, _⟩ := toNat_hundredfold hsmall
  have hcast : ((hundredfold mantissa).toNat : ℚ) = 100 * mantissa.toNat := by
    rw [h100]
    push_cast
    ring
  rw [mcBinaryToFixed2]
  dsimp only
  rw [if_neg (UInt64.not_lt.mpr hsmall), ← hundredfold]
  generalize exponent - mantissaBits = shift
  by_cases hshift : shift ≥ 0
  · obtain ⟨n, rfl⟩ := Int.eq_ofNat_of_zero_le hshift
    rw [if_pos hshift, Int.toNat_natCast]
    have hround : roundHalfEven (100 * (mantissa.toNat * 2 ^ (n : ℤ))) =
        (((hundredfold mantissa).toNat * 2 ^ n : ℕ) : ℤ) := by
      rw [← roundHalfEven_intCast (((hundredfold mantissa).toNat * 2 ^ n : ℕ) : ℤ)]
      push_cast
      rw [hcast, zpow_natCast, mul_assoc]
    by_cases hroom : (hundredfold mantissa).toNat * 2 ^ n ≤ 3000000000
    · have hlt : n < 64 := by
        by_contra hfar
        have hpow : 2 ^ 64 ≤ 2 ^ n := Nat.pow_le_pow_right (by decide) (by omega)
        have hprod : 2 ^ n ≤ (hundredfold mantissa).toNat * 2 ^ n :=
          Nat.le_mul_of_pos_left _ (by omega)
        omega
      have hlimit : ¬hundredfold mantissa > mcCommandFixed2MaxScaled >>> UInt64.ofNat n := by
        rw [gt_iff_lt, UInt64.not_lt, UInt64.le_iff_toNat_le, U64.toNat_shiftRight _ hlt]
        exact (Nat.le_div_iff_mul_le (Nat.two_pow_pos _)).mpr hroom
      rw [if_neg (not_or.mpr ⟨by omega, hlimit⟩)]
      apply exactFixed2_of_round
      rw [hround, U64.toNat_shiftLeft hlt (by omega)]
    · have hover : (n : ℤ) ≥ 64 ∨
          hundredfold mantissa > mcCommandFixed2MaxScaled >>> UInt64.ofNat n := by
        by_cases hfar : (n : ℤ) ≥ 64
        · exact .inl hfar
        · right
          rw [gt_iff_lt, UInt64.lt_iff_toNat_lt, U64.toNat_shiftRight _ (by omega)]
          exact (Nat.div_lt_iff_lt_mul (Nat.two_pow_pos _)).mpr (Nat.lt_of_not_le hroom)
      rw [if_pos hover, exactFixed2, hround]
      exact (if_neg (fun hle => hroom (Int.ofNat_le.mp hle))).symm
  · obtain ⟨n, hn⟩ := Int.eq_ofNat_of_zero_le (by omega : 0 ≤ -shift)
    rw [if_neg hshift, hn, Int.toNat_natCast]
    apply exactFixed2_of_round
    rw [toNat_mcRoundShiftU64 (by omega), ← roundHalfEven_natCast_div, hcast,
      show shift = -(n : ℤ) by omega, zpow_neg, zpow_natCast, ← mul_assoc, div_eq_mul_inv]

def mcDoubleToFixed2Checked (value : Float64Bits) : InRange (Option (Bool × UInt32)) :=
  (U64.shr value 52).bind fun high =>
    if high &&& 0x7ff = 0x7ff then .ok none
    else if high &&& 0x7ff = 0 then .ok (some (false, 0))
    else
      mcBinaryToFixed2Checked (value &&& 0x8000000000000000 ≠ 0)
        (((high &&& 0x7ff).toNat : ℤ) - 1023) (0x0010000000000000 ||| value &&& 0x000fffffffffffff) 52

/-- `mc_float_to_fixed2` with checked arithmetic; its fields are taken from 32 bits. -/
def mcFloatToFixed2Checked (value : Float32Bits) : InRange (Option (Bool × UInt32)) :=
  let expBits := (value >>> 23) &&& 0xff
  if expBits = 0xff then .ok none
  else if expBits = 0 then .ok (some (false, 0))
  else
    mcBinaryToFixed2Checked (value &&& 0x80000000 ≠ 0) ((expBits.toNat : ℤ) - 127)
      (0x00800000 ||| value &&& 0x007fffff).toUInt64 23

theorem mcDoubleToFixed2Checked_eq (value : Float64Bits) :
    mcDoubleToFixed2Checked value = .ok (mcDoubleToFixed2 value) := by
  have hshift : U64.shr value 52 = .ok (value >>> 52) := U64.shr_of_lt value (by decide)
  rw [mcDoubleToFixed2Checked, hshift, mcDoubleToFixed2]
  simp only [mcBinaryToFixed2Checked_eq, Except.bind]
  split_ifs <;> rfl

theorem mcFloatToFixed2Checked_eq (value : Float32Bits) :
    mcFloatToFixed2Checked value = .ok (mcFloatToFixed2 value) := by
  rw [mcFloatToFixed2Checked, mcFloatToFixed2]
  simp only [mcBinaryToFixed2Checked_eq]
  split_ifs <;> rfl

theorem and_two_pow_ne_zero (n i : ℕ) : n &&& 2 ^ i ≠ 0 ↔ n / 2 ^ i % 2 = 1 := by
  rw [Nat.and_two_pow, Nat.testBit_eq_decide_div_mod_eq]
  by_cases h : n / 2 ^ i % 2 = 1
  · simp [h]
  · simp [h]

theorem exactFixed2_subnormal (format : BinaryFormat) (negative : Bool) {pattern : ℕ}
    (h : format.exponent pattern = 0) (hbias : 10 ≤ format.bias) :
    exactFixed2 negative (format.magnitude pattern) = some (false, 0) := by
  -- Zero exponent: too small for a hundredth.
  have hlt := format.magnitude_lt_of_exponent_eq_zero h
  have hpow : (2 : ℚ) ^ (1 - (format.bias : ℤ)) ≤ 2 ^ (-9 : ℤ) :=
    zpow_le_zpow_right₀ (by norm_num) (by omega)
  have hsmall : format.magnitude pattern < 1 / 512 :=
    (hlt.trans_le hpow).trans_eq (by norm_num)
  have hnonneg := format.magnitude_nonneg pattern
  have hround : roundHalfEven (100 * format.magnitude pattern) = 0 := by
    apply roundHalfEven_eq_of_abs_sub_lt
    rw [Int.cast_zero, sub_zero, abs_of_nonneg (by positivity)]
    linarith
  rw [exactFixed2, hround]
  simp

theorem mcDoubleToFixed2_eq (value : Float64Bits) :
    mcDoubleToFixed2 value =
      if BinaryFormat.binary64.IsFinite value.toNat then
        exactFixed2 (BinaryFormat.binary64.sign value.toNat)
          (BinaryFormat.binary64.magnitude value.toNat)
      else none := by
  have hexponent : ((value >>> 52) &&& 0x7ff).toNat = BinaryFormat.binary64.exponent value.toNat := by
    rw [UInt64.toNat_and]
    exact (Nat.and_two_pow_sub_one_eq_mod _ 11).trans
      (congrArg (· % 2 ^ 11) (U64.toNat_shiftRight value (n := 52) (by decide)))
  have hfraction : (value &&& 0x000fffffffffffff).toNat =
      BinaryFormat.binary64.fraction value.toNat := by
    rw [UInt64.toNat_and]
    exact Nat.and_two_pow_sub_one_eq_mod _ 52
  have hlt : BinaryFormat.binary64.fraction value.toNat < 2 ^ 52 :=
    BinaryFormat.binary64.fraction_lt value.toNat
  have hmantissa : (0x0010000000000000 ||| value &&& 0x000fffffffffffff).toNat =
      2 ^ 52 + BinaryFormat.binary64.fraction value.toNat := by
    rw [UInt64.toNat_or, hfraction]
    exact (Nat.two_pow_add_eq_or_of_lt hlt 1).symm
  have hsign : (value &&& 0x8000000000000000 ≠ 0) ↔
      BinaryFormat.binary64.sign value.toNat = true := by
    rw [ne_eq, ← UInt64.toNat_inj, UInt64.toNat_and, BinaryFormat.sign, decide_eq_true_iff]
    exact and_two_pow_ne_zero value.toNat 63
  have hall : ((value >>> 52) &&& 0x7ff = 0x7ff) ↔ ¬BinaryFormat.binary64.IsFinite value.toNat := by
    rw [BinaryFormat.IsFinite, not_not, ← hexponent, ← UInt64.toNat_inj]
    rfl
  have hzero : ((value >>> 52) &&& 0x7ff = 0) ↔ BinaryFormat.binary64.exponent value.toNat = 0 := by
    rw [← hexponent, ← UInt64.toNat_inj]
    rfl
  rw [mcDoubleToFixed2]
  simp only [hall, hzero, hsign]
  by_cases hfinite : BinaryFormat.binary64.IsFinite value.toNat
  case neg => rw [if_pos hfinite, if_neg hfinite]
  rw [if_neg (not_not.mpr hfinite), if_pos hfinite]
  by_cases hsubnormal : BinaryFormat.binary64.exponent value.toNat = 0
  · rw [if_pos hsubnormal, exactFixed2_subnormal _ _ hsubnormal (by decide)]
  rw [if_neg hsubnormal, mcBinaryToFixed2_eq _ _ _ (by omega) (by omega), hmantissa, hexponent,
    BinaryFormat.magnitude, if_neg hsubnormal]
  simp only [Bool.decide_eq_true, sub_sub]
  rfl

theorem mcFloatToFixed2_eq (value : Float32Bits) :
    mcFloatToFixed2 value =
      if BinaryFormat.binary32.IsFinite value.toNat then
        exactFixed2 (BinaryFormat.binary32.sign value.toNat)
          (BinaryFormat.binary32.magnitude value.toNat)
      else none := by
  have hexponent : ((value >>> 23) &&& 0xff).toNat = BinaryFormat.binary32.exponent value.toNat := by
    have hshift : (value >>> 23).toNat = value.toNat / 2 ^ 23 := by
      rw [UInt32.toNat_shiftRight, Nat.shiftRight_eq_div_pow]
      rfl
    rw [UInt32.toNat_and]
    exact (Nat.and_two_pow_sub_one_eq_mod _ 8).trans (congrArg (· % 2 ^ 8) hshift)
  have hfraction : (value &&& 0x007fffff).toNat = BinaryFormat.binary32.fraction value.toNat := by
    rw [UInt32.toNat_and]
    exact Nat.and_two_pow_sub_one_eq_mod _ 23
  have hlt : BinaryFormat.binary32.fraction value.toNat < 2 ^ 23 :=
    BinaryFormat.binary32.fraction_lt value.toNat
  have hmantissa : (0x00800000 ||| value &&& 0x007fffff).toUInt64.toNat =
      2 ^ 23 + BinaryFormat.binary32.fraction value.toNat := by
    rw [UInt32.toNat_toUInt64, UInt32.toNat_or, hfraction]
    exact (Nat.two_pow_add_eq_or_of_lt hlt 1).symm
  have hsign : (value &&& 0x80000000 ≠ 0) ↔ BinaryFormat.binary32.sign value.toNat = true := by
    rw [ne_eq, ← UInt32.toNat_inj, UInt32.toNat_and, BinaryFormat.sign, decide_eq_true_iff]
    exact and_two_pow_ne_zero value.toNat 31
  have hall : ((value >>> 23) &&& 0xff = 0xff) ↔ ¬BinaryFormat.binary32.IsFinite value.toNat := by
    rw [BinaryFormat.IsFinite, not_not, ← hexponent, ← UInt32.toNat_inj]
    rfl
  have hzero : ((value >>> 23) &&& 0xff = 0) ↔ BinaryFormat.binary32.exponent value.toNat = 0 := by
    rw [← hexponent, ← UInt32.toNat_inj]
    rfl
  rw [mcFloatToFixed2]
  simp only [hall, hzero, hsign]
  by_cases hfinite : BinaryFormat.binary32.IsFinite value.toNat
  case neg => rw [if_pos hfinite, if_neg hfinite]
  rw [if_neg (not_not.mpr hfinite), if_pos hfinite]
  by_cases hsubnormal : BinaryFormat.binary32.exponent value.toNat = 0
  · rw [if_pos hsubnormal, exactFixed2_subnormal _ _ hsubnormal (by decide)]
  rw [if_neg hsubnormal, mcBinaryToFixed2_eq _ _ _ (by omega) (by omega), hmantissa, hexponent,
    BinaryFormat.magnitude, if_neg hsubnormal]
  simp only [Bool.decide_eq_true, sub_sub]
  rfl

/-- `result` shows the value of `pattern` in hundredths, rounded to nearest with ties to even,
and fails exactly when there is no value or it is out of range. -/
structure ShowsHundredths (format : BinaryFormat) (pattern : ℕ) (result : Option (Bool × UInt32)) :
    Prop where
  isSome_iff : result.isSome = true ↔
    format.IsFinite pattern ∧ roundHalfEven (100 * format.magnitude pattern) ≤ 3000000000
  scaled_eq : ∀ shown, result = some shown →
    (shown.2.toNat : ℤ) = roundHalfEven (100 * format.magnitude pattern)
  negative_iff : ∀ shown, result = some shown →
    (shown.1 = true ↔ format.sign pattern = true ∧ shown.2 ≠ 0)

theorem showsHundredths_exactFixed2 (format : BinaryFormat) (pattern : ℕ) :
    ShowsHundredths format pattern
      (if format.IsFinite pattern then
        exactFixed2 (format.sign pattern) (format.magnitude pattern)
      else none) := by
  have hnonneg : 0 ≤ roundHalfEven (100 * format.magnitude pattern) := by
    have hvalue : ((0 : ℤ) : ℚ) ≤ 100 * format.magnitude pattern := by
      simpa using format.magnitude_nonneg pattern
    exact (roundHalfEven_intCast 0).symm.trans_le (roundHalfEven_mono hvalue)
  obtain ⟨hundredths, hround⟩ := Int.eq_ofNat_of_zero_le hnonneg
  by_cases hfinite : format.IsFinite pattern
  case neg => exact ⟨by simp [hfinite], by simp [hfinite], by simp [hfinite]⟩
  by_cases hle : (hundredths : ℤ) ≤ 3000000000
  case neg => exact ⟨by simp [exactFixed2, hround, hle], by simp [exactFixed2, hround, hle],
    by simp [exactFixed2, hround, hle]⟩
  have htoNat : (UInt32.ofNat hundredths).toNat = hundredths := by
    rw [UInt32.toNat_ofNat']
    omega
  have hzero : UInt32.ofNat hundredths ≠ 0 ↔ hundredths ≠ 0 := by
    rw [ne_eq, ← UInt32.toNat_inj, htoNat]
    rfl
  rw [if_pos hfinite, exactFixed2, hround, if_pos hle]
  refine ⟨by simp [hfinite, hround, hle], ?_, ?_⟩
  · rintro shown ⟨⟩
    rw [hround]
    exact congrArg Nat.cast htoNat
  · rintro shown ⟨⟩
    rw [Int.toNat_natCast, hzero, Bool.and_eq_true, decide_eq_true_iff, ne_eq, Nat.cast_eq_zero]

/-- Every pattern of either format is shown exactly, and no operation on the way wraps. -/
theorem fixed2_exact (double : Float64Bits) (float : Float32Bits) :
    ShowsHundredths .binary64 double.toNat (mcDoubleToFixed2 double) ∧
    ShowsHundredths .binary32 float.toNat (mcFloatToFixed2 float) ∧
    mcDoubleToFixed2Checked double = .ok (mcDoubleToFixed2 double) ∧
    mcFloatToFixed2Checked float = .ok (mcFloatToFixed2 float) := by
  refine ⟨?_, ?_, mcDoubleToFixed2Checked_eq double, mcFloatToFixed2Checked_eq float⟩
  · rw [mcDoubleToFixed2_eq]
    exact showsHundredths_exactFixed2 .binary64 double.toNat
  · rw [mcFloatToFixed2_eq]
    exact showsHundredths_exactFixed2 .binary32 float.toNat

end StarrySky.Core
