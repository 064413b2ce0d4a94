import StarrySky.Core.CheckedParse

/-! How close an accepted coordinate is to what was typed. -/

namespace StarrySky.Core
open StarrySky.Base

theorem billionths_le_limit {whole frac : List UInt8} (hfrac : IsDigits frac)
    (hle : decimalAbs whole frac ≤ 30000000) : billionths whole frac ≤ 30000000 * 10 ^ 9 := by
  have hcut := (billionths_le whole hfrac).1
  have hcast : (billionths whole frac : ℚ) ≤ ((30000000 * 10 ^ 9 : ℕ) : ℚ) := by
    push_cast
    linarith
  exact_mod_cast hcast

theorem Assembles.isNearestDouble {negative : Bool} {whole frac : List UInt8} {bits : Float64Bits}
    (h : Assembles negative whole frac bits) (hfrac : IsDigits frac)
    (hle : decimalAbs whole frac ≤ 30000000) :
    IsNearestDouble negative (tableQ32 (billionths whole frac)) bits := by
  obtain ⟨w, f, scale, hw, hf, hscale, rfl⟩ := h.exists_eq
  have hwhole : w.toNat ≤ 30000000 := by
    have hgt := (@decimalAbs_gt_iff whole _ hfrac).not.mp (not_lt.mpr hle)
    omega
  have htake : IsDigits (frac.take 9) := fun ch hch => hfrac ch (List.mem_of_mem_take hch)
  have hsmall : f.toNat < 10 ^ (frac.take 9).length := hf.trans_lt (digitsValue_lt htake)
  have hlength : (frac.take 9).length ≤ 9 := by
    rw [List.length_take]
    exact min_le_left _ _
  have hq32 : (decimalQ32 w f scale).toNat = tableQ32 (billionths whole frac) := by
    rw [toNat_decimalQ32 hlength hwhole hscale hsmall, hw, hf, billionths]
  exact isNearestDouble_mcDecimalToDouble negative hq32
    (tableQ32_lt (billionths_le_limit hfrac hle))

theorem IsNearestDouble.value_eq {negative : Bool} {q : ℕ} {bits : Float64Bits}
    (h : IsNearestDouble negative q bits) :
    BinaryFormat.binary64.value bits.toNat =
      if negative then -((roundToBits 53 q : ℚ) / 2 ^ 32) else (roundToBits 53 q : ℚ) / 2 ^ 32 := by
  rw [BinaryFormat.value, h.magnitude_eq]
  by_cases hq : q = 0
  · -- zero has no sign
    subst hq
    have hzero : roundToBits 53 0 = 0 := roundToBits_of_lt (by decide)
    rw [hzero]
    simp
  · rw [h.sign_eq hq]

/-- The double read for the typed number. -/
structure IsAccurate (negative : Bool) (whole frac : List UInt8) (bits : Float64Bits) : Prop where
  isFinite : BinaryFormat.binary64.IsFinite bits.toNat
  zero_or_normal : bits = 0 ∨ BinaryFormat.binary64.exponent bits.toNat ≠ 0
  near : |BinaryFormat.binary64.value bits.toNat - decimalValue negative whole frac| < 1 / 10 ^ 8
  abs_le : |BinaryFormat.binary64.value bits.toNat| ≤ 30000000
  neg_iff : BinaryFormat.binary64.value bits.toNat ≠ 0 →
    (BinaryFormat.binary64.value bits.toNat < 0 ↔ negative = true)

theorem abs_roundToBits_sub_decimalAbs_lt (whole : List UInt8) {frac : List UInt8}
    (hfrac : IsDigits frac) (hle : decimalAbs whole frac ≤ 30000000) :
    |(roundToBits 53 (tableQ32 (billionths whole frac)) : ℚ) / 2 ^ 32 - decimalAbs whole frac| <
      1 / 10 ^ 8 := by
  have hcut := billionths_le whole hfrac
  have htable := tableQ32_near (billionths whole frac)
  have hlarge := tableQ32_lt (billionths_le_limit hfrac hle)
  have hround := abs_roundToBits_sub_le 53 (tableQ32 (billionths whole frac))
  generalize billionths whole frac = n at *
  have habove : (tableQ32 n : ℚ) * 10 ^ 9 ≤ n * 2 ^ 32 + 15 * 10 ^ 9 := by exact_mod_cast htable.1
  have hbelow : (n : ℚ) * 2 ^ 32 ≤ tableQ32 n * 10 ^ 9 + 6 * 10 ^ 9 := by exact_mod_cast htable.2
  generalize tableQ32 n = t at *
  -- at most four bits are lost
  have hbits : t.log2 + 1 - 53 ≤ 4 := by
    rcases Nat.eq_zero_or_pos t with rfl | hpos
    · decide
    · have hlog := (Nat.log2_lt hpos.ne').mpr hlarge
      omega
  have hhalf : (2 : ℚ) ^ (t.log2 + 1 - 53) / 2 ≤ 8 := by
    have hpow : (2 : ℚ) ^ (t.log2 + 1 - 53) ≤ 2 ^ 4 := pow_le_pow_right₀ (by norm_num) hbits
    linarith
  rw [abs_le] at hround
  rw [abs_lt]
  generalize (roundToBits 53 t : ℚ) = r at *
  generalize (t : ℚ) = q at *
  generalize (n : ℚ) = m at *
  generalize decimalAbs whole frac = d at *
  constructor
  · rw [neg_lt_sub_iff_lt_add, ← sub_lt_iff_lt_add', lt_div_iff₀ (by norm_num)]
    linarith
  · rw [sub_lt_iff_lt_add, div_lt_iff₀ (by norm_num)]
    linarith

theorem IsDecimal.isDigits_frac {token whole frac : List UInt8} {negative : Bool}
    (h : IsDecimal token negative whole frac) : IsDigits frac := by
  obtain ⟨text, hunsigned, _⟩ := h.exists_parseUnsigned
  obtain ⟨tail, _, hfraction⟩ := hunsigned.exists_fraction
  exact hfraction.isDigits

theorem IsDecimal.isNearestDouble {token whole frac : List UInt8} {negative : Bool}
    (h : IsDecimal token negative whole frac) {bits : Float64Bits}
    (hparse : mcParseDecimal token = some (bits, false)) :
    decimalAbs whole frac ≤ 30000000 ∧
      IsNearestDouble negative (tableQ32 (billionths whole frac)) bits := by
  rcases h.mcParseDecimal_eq with ⟨_, hrange⟩ | ⟨hle, found, hfound, hassembles⟩
  · exact absurd (hrange.symm.trans hparse) (by simp)
  · rw [hfound] at hparse
    cases hparse
    exact ⟨hle, hassembles.isNearestDouble h.isDigits_frac hle⟩

theorem IsDecimal.isAccurate {token whole frac : List UInt8} {negative : Bool}
    (h : IsDecimal token negative whole frac) {bits : Float64Bits}
    (hparse : mcParseDecimal token = some (bits, false)) :
    IsAccurate negative whole frac bits := by
  obtain ⟨hle, hnearest⟩ := h.isNearestDouble hparse
  have hnear := abs_roundToBits_sub_decimalAbs_lt whole h.isDigits_frac hle
  have hlimit := roundToBits_tableQ32_le (billionths_le_limit h.isDigits_frac hle)
  have hvalue := hnearest.value_eq
  generalize hq : tableQ32 (billionths whole frac) = q at *
  have hnonneg : (0 : ℚ) ≤ roundToBits 53 q / 2 ^ 32 := by positivity
  have hcast : (roundToBits 53 q : ℚ) ≤ 30000000 * 2 ^ 32 := by exact_mod_cast hlimit
  have hmagnitude : (roundToBits 53 q : ℚ) / 2 ^ 32 ≤ 30000000 :=
    (div_le_iff₀ (by norm_num)).mpr hcast
  refine ⟨hnearest.isFinite, ?_, ?_, ?_, ?_⟩
  · by_cases hzero : q = 0
    · exact .inl (hnearest.eq_zero hzero)
    · exact .inr (hnearest.normal hzero)
  · rw [hvalue, decimalValue]
    cases negative with
    | false => exact hnear
    | true =>
      have hflip : -((roundToBits 53 q : ℚ) / 2 ^ 32) - -decimalAbs whole frac =
          -((roundToBits 53 q : ℚ) / 2 ^ 32 - decimalAbs whole frac) := by ring
      simp only [if_true]
      rwa [hflip, abs_neg]
  · rw [hvalue]
    cases negative with
    | false => exact (abs_of_nonneg hnonneg).trans_le hmagnitude
    | true => exact ((abs_neg _).trans (abs_of_nonneg hnonneg)).trans_le hmagnitude
  · rw [hvalue]
    cases negative with
    | false => simp [not_lt.mpr hnonneg]
    | true =>
      intro hne
      have hpos : (0 : ℚ) < roundToBits 53 q / 2 ^ 32 :=
        lt_of_le_of_ne hnonneg fun heq => hne (by simp [← heq])
      simpa using hpos

/-- Every accepted number is read within a hundred-millionth, and nothing overflows on the way. -/
theorem mcParseDecimal_accurate {token : List UInt8} {bits : Float64Bits}
    (h : mcParseDecimal token = some (bits, false)) :
    (∃ negative whole frac, IsDecimal token negative whole frac) ∧
      (∀ negative whole frac, IsDecimal token negative whole frac →
        IsAccurate negative whole frac bits) ∧
      mcParseDecimalChecked token = .ok (some (bits, false)) := by
  refine ⟨exists_isDecimal h, ?_, (mcParseDecimalChecked_eq token).trans (congrArg Except.ok h)⟩
  intro negative whole frac hdecimal
  exact hdecimal.isAccurate h

/-- `-2.0` is read as the double `-2`. -/
theorem mcParseDecimal_accurate_minus_two :
    (∃ negative whole frac, IsDecimal (cText "-2.0") negative whole frac) ∧
      (∀ negative whole frac, IsDecimal (cText "-2.0") negative whole frac →
        IsAccurate negative whole frac 0xc000000000000000) ∧
      mcParseDecimalChecked (cText "-2.0") = .ok (some (0xc000000000000000, false)) :=
  mcParseDecimal_accurate (by decide +kernel)

end StarrySky.Core
