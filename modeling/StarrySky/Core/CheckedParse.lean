import StarrySky.Core.DecimalValue

/-! The number parsers of `core/src/mc_commands.c` with checked arithmetic: nothing in them wraps
and no shift amount reaches the width. -/

namespace StarrySky.Core
open StarrySky.Base

/-- The loop that finds the leading bit. -/
def msbLoop (q32 : UInt64) (msb : ℕ) : ℕ → InRange ℕ
  | 0 => .error .shift
  | room + 1 =>
    (U64.shr q32 msb).bind fun high => if high > 1 then msbLoop q32 (msb + 1) room else .ok msb

theorem msbLoop_eq (q32 : UInt64) {msb : ℕ} (room : ℕ) (hmsb : msb ≤ q32.toNat.log2)
    (hroom : q32.toNat.log2 < msb + room) (hwidth : msb + room ≤ 64) :
    msbLoop q32 msb room = .ok q32.toNat.log2 := by
  have hone : (1 : UInt64).toNat = 1 := rfl
  induction room generalizing msb with
  | zero => omega
  | succ room ih =>
    have hshift : msb < 64 := by omega
    have hgt : q32 >>> UInt64.ofNat msb > 1 ↔ msb < q32.toNat.log2 := by
      rw [gt_iff_lt, UInt64.lt_iff_toNat_lt, hone, U64.toNat_shiftRight q32 hshift,
        ← Nat.succ_le_iff, Nat.le_div_iff_mul_le (Nat.two_pow_pos msb), Nat.succ_eq_add_one,
        ← pow_succ', ← Nat.succ_le_iff]
      by_cases hzero : q32.toNat = 0
      · simp [hzero]
      · exact (Nat.le_log2 hzero).symm
    rw [msbLoop, U64.shr_of_lt q32 hshift]
    show (if q32 >>> UInt64.ofNat msb > 1 then msbLoop q32 (msb + 1) room else .ok msb) = _
    by_cases hmore : msb < q32.toNat.log2
    · rw [if_pos (hgt.mpr hmore)]
      exact ih hmore (by omega) (by omega)
    · rw [if_neg (hgt.not.mpr hmore), Nat.le_antisymm hmsb (Nat.le_of_not_lt hmore)]

def fracQ32Checked (frac scale : UInt32) : InRange UInt64 :=
  let digits := (fracDigitsLoop frac scale mcCommandDecimalMaxFracDigits).reverse
  (digits.zip fracQ32Place).foldlM
    (fun sum p => (U64.mul p.1 p.2).bind fun product => U64.add sum product) 0

theorem fracDigitsLoop_bounds (frac scale : UInt32) (room : ℕ) :
    (fracDigitsLoop frac scale room).length ≤ room ∧
      ∀ digit ∈ fracDigitsLoop frac scale room, digit.toNat ≤ 9 := by
  induction room generalizing frac scale with
  | zero => simp [fracDigitsLoop]
  | succ room ih =>
    obtain ⟨hlength, hdigits⟩ := ih (frac / 10) (scale / 10)
    have hten : (10 : UInt32).toNat = 10 := rfl
    have hfirst : (frac % 10).toUInt64.toNat ≤ 9 := by
      rw [UInt32.toNat_toUInt64, UInt32.toNat_mod, hten]
      omega
    rw [fracDigitsLoop]
    split_ifs
    · refine ⟨Nat.succ_le_succ hlength, ?_⟩
      intro digit hmem
      rcases List.mem_cons.mp hmem with rfl | hmem
      · exact hfirst
      · exact hdigits digit hmem
    · exact ⟨Nat.zero_le _, by simp⟩

theorem foldlM_products (ps : List (UInt64 × UInt64)) (sum : UInt64)
    (hfactors : ∀ p ∈ ps, p.1.toNat ≤ 9 ∧ p.2.toNat ≤ 429496730)
    (hroom : sum.toNat + ps.length * 3865470570 < 2 ^ 64) :
    ps.foldlM (fun sum p => (U64.mul p.1 p.2).bind fun product => U64.add sum product) sum =
        (.ok (ps.foldl (fun sum p => sum + p.1 * p.2) sum) : InRange UInt64) ∧
      (ps.foldl (fun sum p => sum + p.1 * p.2) sum).toNat ≤ sum.toNat + ps.length * 3865470570 := by
  -- A sum of products each of which stays below `2 ^ 36`.
  induction ps generalizing sum with
  | nil => exact ⟨rfl, Nat.le_add_right _ _⟩
  | cons p ps ih =>
    obtain ⟨hdigit, hplace⟩ := hfactors p (List.mem_cons_self ..)
    have hproduct : p.1.toNat * p.2.toNat ≤ 9 * 429496730 := Nat.mul_le_mul hdigit hplace
    have hmul : (p.1 * p.2).toNat = p.1.toNat * p.2.toNat := by
      rw [UInt64.toNat_mul]
      exact Nat.mod_eq_of_lt (by omega)
    rw [List.length_cons] at hroom ⊢
    have hadd : (sum + p.1 * p.2).toNat = sum.toNat + p.1.toNat * p.2.toNat := by
      rw [UInt64.toNat_add, hmul]
      exact Nat.mod_eq_of_lt (by omega)
    have hrest := ih (sum + p.1 * p.2) (fun p hp => hfactors p (List.mem_cons_of_mem _ hp)) (by omega)
    rw [List.foldlM_cons, U64.mul_of_lt (by omega), List.foldl_cons]
    refine ⟨?_, hrest.2.trans (by omega)⟩
    rw [bind_ok, U64.add_of_lt (by omega)]
    exact hrest.1

theorem fracQ32Checked_eq (frac scale : UInt32) :
    fracQ32Checked frac scale = .ok (fracQ32 frac scale) ∧ (fracQ32 frac scale).toNat < 2 ^ 36 := by
  obtain ⟨hlength, hdigits⟩ := fracDigitsLoop_bounds frac scale mcCommandDecimalMaxFracDigits
  have hplaces : ∀ entry ∈ fracQ32Place, entry.toNat ≤ 429496730 := by
    intro entry hentry
    simp only [fracQ32Place, List.mem_cons, List.not_mem_nil, or_false] at hentry
    rcases hentry with rfl | rfl | rfl | rfl | rfl | rfl | rfl | rfl | rfl <;> decide
  have hfactors : ∀ p ∈ (fracDigitsLoop frac scale mcCommandDecimalMaxFracDigits).reverse.zip
      fracQ32Place, p.1.toNat ≤ 9 ∧ p.2.toNat ≤ 429496730 := by
    intro p hp
    obtain ⟨hdigit, hplace⟩ := List.of_mem_zip hp
    exact ⟨hdigits _ (List.mem_reverse.mp hdigit), hplaces _ hplace⟩
  have hzip : ((fracDigitsLoop frac scale mcCommandDecimalMaxFracDigits).reverse.zip
      fracQ32Place).length ≤ 9 := by
    rw [List.length_zip, List.length_reverse]
    exact (min_le_left _ _).trans hlength
  have hzero : (0 : UInt64).toNat = 0 := rfl
  obtain ⟨hfold, hsum⟩ := foldlM_products _ 0 hfactors (by omega)
  exact ⟨hfold, hsum.trans_lt (by omega)⟩

def mcDecimalToDoubleChecked (negative : Bool) (whole frac scale : UInt32) : InRange Float64Bits :=
  (U64.shl whole.toUInt64 32).bind fun high =>
  (if frac ≠ 0 then fracQ32Checked frac scale else .ok 0).bind fun low =>
  (U64.add high low).bind fun q32 =>
    if q32 = 0 then .ok 0
    else
      (msbLoop q32 0 64).bind fun msb =>
      let exponent : ℤ := (msb : ℤ) - 32
      let shift : ℤ := 52 - msb
      (if shift ≥ 0 then (U64.shl q32 shift.toNat).map fun mantissa => (mantissa, exponent)
        else
          (mcRoundShiftU64Checked q32 (-shift).toNat).bind fun mantissa =>
          (U64.shr mantissa 53).bind fun carry =>
            if carry ≠ 0 then (U64.shr mantissa 1).map fun half => (half, exponent + 1)
            else .ok (mantissa, exponent)).bind fun rounded =>
      (U64.shl (UInt64.ofNat (rounded.2 + 1023).toNat) 52).bind fun field =>
        let bits := field ||| (rounded.1 &&& 0x000fffffffffffff)
        .ok (if negative then bits ||| 0x8000000000000000 else bits)

theorem roundedMantissaChecked_eq (q32 : UInt64) :
    (if (52 : ℤ) - q32.toNat.log2 ≥ 0 then
        (U64.shl q32 ((52 : ℤ) - q32.toNat.log2).toNat).map fun mantissa =>
          (mantissa, (q32.toNat.log2 : ℤ) - 32)
      else
        (mcRoundShiftU64Checked q32 (-((52 : ℤ) - q32.toNat.log2)).toNat).bind fun mantissa =>
        (U64.shr mantissa 53).bind fun carry =>
          if carry ≠ 0 then
            (U64.shr mantissa 1).map fun half => (half, (q32.toNat.log2 : ℤ) - 32 + 1)
          else .ok (mantissa, (q32.toNat.log2 : ℤ) - 32)) = .ok (roundedMantissa q32) := by
  rw [roundedMantissa]
  dsimp only
  split_ifs with hshift hcarry
  · obtain ⟨s, hs⟩ := Int.eq_ofNat_of_zero_le hshift
    have hwide : q32.toNat * 2 ^ s < 2 ^ 64 := by
      calc q32.toNat * 2 ^ s < 2 ^ (q32.toNat.log2 + 1) * 2 ^ s := by
            gcongr
            exact Nat.lt_log2_self
        _ = 2 ^ 53 := by rw [← pow_add]; congr 1; omega
        _ < 2 ^ 64 := by decide
    rw [hs, Int.toNat_natCast, U64.shl_of_lt (by omega) hwide]
    rfl
  · rw [mcRoundShiftU64Checked_eq, bind_ok, U64.shr_of_lt _ (by decide), bind_ok,
      U64.shr_of_lt _ (by decide)]
    exact if_pos hcarry
  · rw [mcRoundShiftU64Checked_eq, bind_ok, U64.shr_of_lt _ (by decide), bind_ok]
    exact if_neg hcarry

theorem mcDecimalToDoubleChecked_eq (negative : Bool) {whole : UInt32} (frac scale : UInt32)
    (hwhole : whole.toNat ≤ 30000000) :
    mcDecimalToDoubleChecked negative whole frac scale =
      .ok (mcDecimalToDouble negative whole frac scale) := by
  obtain ⟨hfrac, hbound⟩ := fracQ32Checked_eq frac scale
  have htoNat : whole.toUInt64.toNat = whole.toNat := UInt32.toNat_toUInt64 whole
  have hhigh : (whole.toUInt64 <<< UInt64.ofNat 32).toNat = whole.toNat * 2 ^ 32 := by
    rw [U64.toNat_shiftLeft (by decide) (by omega), htoNat]
  have hlow : (if frac ≠ 0 then fracQ32Checked frac scale else .ok 0) =
      .ok (if frac ≠ 0 then fracQ32 frac scale else 0) := by
    rw [hfrac]
    split_ifs <;> rfl
  have hlowBound : (if frac ≠ 0 then fracQ32 frac scale else 0).toNat < 2 ^ 36 := by
    split_ifs
    · exact hbound
    · decide
  have hsplit : decimalQ32 whole frac scale = whole.toUInt64 <<< UInt64.ofNat 32 +
      (if frac ≠ 0 then fracQ32 frac scale else 0) := rfl
  rw [mcDecimalToDoubleChecked, U64.shl_of_lt (by decide) (by omega), bind_ok, hlow, bind_ok,
    mcDecimalToDouble_eq, hsplit]
  generalize (if frac ≠ 0 then fracQ32 frac scale else 0) = low at *
  have hsum : (whole.toUInt64 <<< UInt64.ofNat 32 + low).toNat < 2 ^ 58 := by
    rw [UInt64.toNat_add, hhigh]
    omega
  rw [U64.add_of_lt (by omega), bind_ok]
  generalize whole.toUInt64 <<< UInt64.ofNat 32 + low = q32 at *
  by_cases hzero : q32 = 0
  · rw [if_pos hzero, if_pos hzero]
  have hne : q32.toNat ≠ 0 := fun h => hzero (UInt64.toNat_inj.mp h)
  have hlog : q32.toNat.log2 < 58 := (Nat.log2_lt hne).mpr hsum
  rw [if_neg hzero, if_neg hzero, msbLoop_eq q32 64 (Nat.zero_le _) (by omega) (Nat.le_refl _)]
  have hrounded := roundedMantissaChecked_eq q32
  have hexponent : (roundedMantissa q32).2 ≤ 26 := by
    rw [roundedMantissa]
    dsimp only
    split_ifs <;> dsimp only <;> omega
  have hfield : (UInt64.ofNat ((roundedMantissa q32).2 + 1023).toNat).toNat * 2 ^ 52 < 2 ^ 64 := by
    rw [UInt64.toNat_ofNat']
    omega
  rw [bind_ok]
  dsimp only
  rw [hrounded, bind_ok, U64.shl_of_lt (by decide) hfield]
  rfl

/-! The digit loops; `length` is the length of the token whose characters they count. -/

def wholeLoopChecked (length : ℕ) (rangeError : Bool) (whole : UInt32) (intDigits : ℕ) :
    List UInt8 → InRange WholeDigits
  | [] => .ok { rangeError, whole, intDigits, rest := [] }
  | ch :: rest =>
    if isDigit ch then
      let digit := (ch - 0x30).toUInt32
      (countCharacter length intDigits).bind fun intDigits =>
      (U32.sub mcCommandCoordLimitWhole digit).bind fun room =>
        if whole > room / 10 then wholeLoopChecked length true whole intDigits rest
        else if !rangeError then
          (U32.mul whole 10).bind fun tenfold =>
          (U32.add tenfold digit).bind fun whole =>
            wholeLoopChecked length rangeError whole intDigits rest
        else wholeLoopChecked length rangeError whole intDigits rest
    else .ok { rangeError, whole, intDigits, rest := ch :: rest }

theorem wholeLoopChecked_eq {length : ℕ} (text : List UInt8) (rangeError : Bool) {whole : UInt32}
    {intDigits : ℕ} (hwhole : whole.toNat ≤ 30000000) (hlength : intDigits + text.length ≤ length) :
    wholeLoopChecked length rangeError whole intDigits text =
      .ok (wholeLoop rangeError whole intDigits text) := by
  have hlimit : mcCommandCoordLimitWhole.toNat = 30000000 := rfl
  have hten : (10 : UInt32).toNat = 10 := rfl
  induction text generalizing rangeError whole intDigits with
  | nil => rfl
  | cons ch rest ih =>
    rw [List.length_cons] at hlength
    have hrestLength : intDigits + 1 + rest.length ≤ length := by omega
    cases hch : isDigit ch with
    | false =>
      rw [wholeLoopChecked, wholeLoop, if_neg (by simp [hch]), if_neg (by simp [hch])]
    | true =>
      have hdigit := digitValue_lt hch
      have htoNat := toNat_toUInt32_sub ch
      rw [wholeLoop_cons hch, wholeLoopChecked, if_pos hch, countCharacter_of_lt (by omega), bind_ok,
        U32.sub_of_le (by omega), bind_ok]
      by_cases hgt : whole > (mcCommandCoordLimitWhole - (ch - 0x30).toUInt32) / 10
      · rw [if_pos hgt, if_pos hgt]
        rw [ih true hwhole hrestLength]
      · have hfits := (whole_gt_iff hch whole).not.mp hgt
        rw [if_neg hgt, if_neg hgt]
        cases rangeError with
        | true =>
          rw [if_neg (by decide), if_neg (by decide)]
          rw [ih true hwhole hrestLength]
        | false =>
          have htenfold : (whole * 10).toNat = 10 * whole.toNat := by
            rw [UInt32.toNat_mul, hten]
            omega
          have hnext := @toNat_accumulate ch whole (by omega)
          rw [if_pos (Bool.not_false : (!false) = true), if_pos (Bool.not_false : (!false) = true),
            U32.mul_of_lt (by rw [hten]; omega), bind_ok, U32.add_of_lt (by omega), bind_ok]
          have hbound : (whole * 10 + (ch - 0x30).toUInt32).toNat ≤ 30000000 :=
            hnext.trans_le (Nat.le_of_not_lt hfits)
          rw [ih false hbound hrestLength]

def fracLoopChecked (length : ℕ) (rangeError : Bool) (frac scale : UInt32) (fracDigits : ℕ)
    (discardedNonzeroFrac : Bool) : List UInt8 → InRange FracDigits
  | [] => .ok { frac, scale, fracDigits, discardedNonzeroFrac, rest := [] }
  | ch :: rest =>
    if isDigit ch then
      (countCharacter length fracDigits).bind fun counted =>
        if !rangeError ∧ fracDigits < mcCommandDecimalMaxFracDigits then
          (U32.mul frac 10).bind fun tenfold =>
          (U32.add tenfold (ch - 0x30).toUInt32).bind fun frac =>
          (U32.mul scale 10).bind fun scale =>
            fracLoopChecked length rangeError frac scale counted discardedNonzeroFrac rest
        else
          fracLoopChecked length rangeError frac scale counted (discardedNonzeroFrac || ch ≠ 0x30)
            rest
    else .ok { frac, scale, fracDigits, discardedNonzeroFrac, rest := ch :: rest }

theorem fracLoopChecked_eq {length : ℕ} (text : List UInt8) (rangeError : Bool)
    {frac scale : UInt32} {fracDigits : ℕ} (discarded : Bool)
    (hread : rangeError = false → fracDigits < 9 →
      frac.toNat < 10 ^ fracDigits ∧ scale.toNat = 10 ^ fracDigits)
    (hlength : fracDigits + text.length ≤ length) :
    fracLoopChecked length rangeError frac scale fracDigits discarded text =
      .ok (fracLoop rangeError frac scale fracDigits discarded text) := by
  -- While there is room, the scale counts the digits and the fraction stays below it.
  have hten : (10 : UInt32).toNat = 10 := rfl
  induction text generalizing frac scale fracDigits discarded with
  | nil => rfl
  | cons ch rest ih =>
    rw [List.length_cons] at hlength
    have hrestLength : fracDigits + 1 + rest.length ≤ length := by omega
    cases hch : isDigit ch with
    | false => rw [fracLoopChecked, fracLoop, if_neg (by simp [hch]), if_neg (by simp [hch])]
    | true =>
      rw [fracLoopChecked, fracLoop, if_pos hch, if_pos hch, countCharacter_of_lt (by omega), bind_ok]
      by_cases hroom : (!rangeError) = true ∧ fracDigits < mcCommandDecimalMaxFracDigits
      · have hflag : rangeError = false := by simpa using hroom.1
        obtain ⟨hfrac, hscale⟩ := hread hflag hroom.2
        have hdigit := digitValue_lt hch
        have htoNat := toNat_toUInt32_sub ch
        have hpow : 10 ^ fracDigits ≤ 10 ^ 8 :=
          Nat.pow_le_pow_right (by decide) (Nat.le_of_lt_succ hroom.2)
        have htenfold : (frac * 10).toNat = 10 * frac.toNat := by
          rw [UInt32.toNat_mul, hten]
          omega
        have hnext := @toNat_accumulate ch frac (by omega)
        have hscaled : (scale * 10).toNat = 10 ^ (fracDigits + 1) := by
          rw [UInt32.toNat_mul, hscale, hten, pow_succ]
          omega
        rw [if_pos hroom, if_pos hroom, U32.mul_of_lt (by rw [hten]; omega), bind_ok,
          U32.add_of_lt (by omega), bind_ok, U32.mul_of_lt (by rw [hten, hscale]; omega), bind_ok]
        have hbelow : (frac * 10 + (ch - 0x30).toUInt32).toNat < 10 ^ (fracDigits + 1) := by
          rw [hnext, pow_succ]
          omega
        rw [ih discarded (fun _ _ => ⟨hbelow, hscaled⟩) hrestLength]
      · have hfull : rangeError = false → ¬fracDigits + 1 < 9 := by
          intro hflag hlt
          exact hroom ⟨by rw [hflag]; rfl, Nat.lt_of_succ_lt hlt⟩
        rw [if_neg hroom, if_neg hroom,
          ih _ (fun hflag hlt => absurd hlt (hfull hflag)) hrestLength]

def parseUnsignedChecked (length : ℕ) (negative : Bool) (digits : List UInt8) :
    InRange (Option (Float64Bits × Bool)) :=
  (wholeLoopChecked length false 0 0 digits).bind fun whole =>
    if whole.intDigits = 0 then .ok none
    else
      (match whole.rest with
        | ch :: rest =>
          if ch = 0x2e then
            (fracLoopChecked length whole.rangeError 0 1 0 false rest).map
              fun (found : FracDigits) => if found.fracDigits = 0 then none else some found
          else .ok (some ⟨0, 1, 0, false, ch :: rest⟩)
        | [] => .ok (some ⟨0, 1, 0, false, []⟩)).bind fun frac =>
      match frac with
      | none => .ok none
      | some frac =>
        if frac.rest ≠ [] then .ok none
        else
          let rangeError := whole.rangeError || whole.whole > mcCommandCoordLimitWhole ||
            (whole.whole = mcCommandCoordLimitWhole &&
              (frac.frac ≠ 0 || frac.discardedNonzeroFrac))
          if rangeError then .ok (some (0, true))
          else
            (mcDecimalToDoubleChecked negative whole.whole frac.frac frac.scale).map fun bits =>
              some (bits, false)

def mcParseDecimalChecked (token : List UInt8) : InRange (Option (Float64Bits × Bool)) :=
  match token with
  | [] => .ok none
  | ch :: rest =>
    if ch = 0x2d ∨ ch = 0x2b then
      if rest = [] then .ok none else parseUnsignedChecked token.length (ch = 0x2d) rest
    else parseUnsignedChecked token.length false (ch :: rest)

theorem wholeLoop_rest_length (rangeError : Bool) (whole : UInt32) (intDigits : ℕ)
    (text : List UInt8) :
    (wholeLoop rangeError whole intDigits text).rest.length ≤ text.length := by
  induction text generalizing rangeError whole intDigits with
  | nil => exact Nat.le_refl _
  | cons ch rest ih =>
    rw [wholeLoop, List.length_cons]
    dsimp only
    split_ifs
    · exact (ih _ _ _).trans (Nat.le_succ _)
    · exact (ih _ _ _).trans (Nat.le_succ _)
    · exact (ih _ _ _).trans (Nat.le_succ _)
    · exact Nat.le_refl _

theorem parseUnsignedChecked_eq {length : ℕ} (negative : Bool) {digits : List UInt8}
    (hlength : digits.length ≤ length) :
    parseUnsignedChecked length negative digits = .ok (parseUnsigned negative digits) := by
  have hrestLength := wholeLoop_rest_length false 0 0 digits
  rw [parseUnsignedChecked, parseUnsigned, wholeLoopChecked_eq digits false (by decide) (by omega),
    bind_ok]
  generalize wholeLoop false 0 0 digits = whole at *
  have hfrac : (match whole.rest with
      | ch :: rest =>
        if ch = 0x2e then
          (fracLoopChecked length whole.rangeError 0 1 0 false rest).map
            fun (found : FracDigits) => if found.fracDigits = 0 then none else some found
        else .ok (some ⟨0, 1, 0, false, ch :: rest⟩)
      | [] => .ok (some ⟨0, 1, 0, false, []⟩) : InRange (Option FracDigits)) =
      .ok (fracScan whole.rangeError whole.rest) := by
    cases hrest : whole.rest with
    | nil => rfl
    | cons ch rest =>
      rw [hrest, List.length_cons] at hrestLength
      dsimp only
      rw [fracScan]
      by_cases hpoint : ch = 0x2e
      · rw [if_pos hpoint, if_pos hpoint, fracLoopChecked_eq rest whole.rangeError false
          (fun _ _ => ⟨by decide, rfl⟩) (by omega), map_ok]
      · rw [if_neg hpoint, if_neg hpoint]
  by_cases hcount : whole.intDigits = 0
  · rw [if_pos hcount]
    exact congrArg Except.ok (if_pos hcount).symm
  rw [if_neg hcount, hfrac, bind_ok]
  dsimp only
  rw [if_neg hcount]
  cases fracScan whole.rangeError whole.rest with
  | none => rfl
  | some frac =>
    dsimp only
    split_ifs with hrest hrange
    · rfl
    · rfl
    · -- the limit has been checked where the number is assembled
      have hwithin : ¬whole.whole > mcCommandCoordLimitWhole := by
        intro hover
        apply hrange
        simp [hover]
      rw [mcDecimalToDoubleChecked_eq negative frac.frac frac.scale (UInt32.not_lt.mp hwithin), map_ok]

theorem mcParseDecimalChecked_eq (token : List UInt8) :
    mcParseDecimalChecked token = .ok (mcParseDecimal token) := by
  cases token with
  | nil => rfl
  | cons ch rest =>
    rw [mcParseDecimalChecked, mcParseDecimal_cons]
    split_ifs
    · rfl
    · exact parseUnsignedChecked_eq _ (Nat.le_succ _)
    · exact parseUnsignedChecked_eq _ (Nat.le_refl _)

end StarrySky.Core
