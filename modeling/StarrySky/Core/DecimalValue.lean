import StarrySky.Core.DecimalToken
import StarrySky.Core.Fixed2

/-! The double that `mc_decimal_to_double` assembles: the table of 32-bit places as a number, its
rounding to 53 bits, and how far the result is from what was typed. -/

namespace StarrySky.Core
open StarrySky.Base

def place (j : ℕ) : ℕ := (fracQ32Place.getD j 0).toNat

/-- What `k` decimal digits add up to by the table. -/
def placeSum : ℕ → ℕ → ℕ
  | 0, _ => 0
  | k + 1, f => placeSum k (f / 10) + f % 10 * place k

theorem placeSum_mul_ten (k f : ℕ) : placeSum (k + 1) (10 * f) = placeSum k f := by
  rw [placeSum, Nat.mul_div_cancel_left _ (by decide), Nat.mul_mod_right, Nat.zero_mul, Nat.add_zero]

theorem placeSum_mul_pow (k m f : ℕ) : placeSum (k + m) (f * 10 ^ m) = placeSum k f := by
  induction m with
  | zero => simp
  | succ m ih =>
    rw [← ih, pow_succ', ← Nat.add_assoc, ← placeSum_mul_ten (k + m), Nat.mul_left_comm]

theorem place_le (j : ℕ) : place j ≤ 429496730 := by
  have hall : ∀ j < 9, place j ≤ 429496730 := by decide
  by_cases hj : j < 9
  · exact hall j hj
  · rw [place, List.getD_eq_default _ _ (Nat.le_of_not_lt hj)]
    decide

theorem placeSum_le (k f : ℕ) : placeSum k f ≤ k * 3865470570 := by
  induction k generalizing f with
  | zero => exact Nat.le_refl _
  | succ k ih =>
    have hdigit : f % 10 * place k ≤ 9 * 429496730 :=
      Nat.mul_le_mul (Nat.le_of_lt_succ (Nat.mod_lt f (by decide))) (place_le k)
    have hrest := ih (f / 10)
    rw [placeSum]
    omega

theorem zip_concat {α β : Type} (xs : List α) (x : α) {ys : List β} {y : β}
    (h : ys[xs.length]? = some y) : (xs ++ [x]).zip ys = xs.zip ys ++ [(x, y)] := by
  induction xs generalizing ys with
  | nil =>
    cases ys with
    | nil => contradiction
    | cons z ys =>
      cases h
      rfl
  | cons a xs ih =>
    cases ys with
    | nil => contradiction
    | cons z ys =>
      have htail := @ih ys h
      simp only [List.cons_append, List.zip_cons_cons, htail]

theorem getElem?_fracQ32Place {k : ℕ} (hk : k < 9) :
    fracQ32Place[k]? = some (fracQ32Place.getD k 0) := by
  rw [List.getD_eq_getElem?_getD, List.getElem?_eq_getElem (h := hk)]
  rfl

theorem fracDigitsLoop_spec (k : ℕ) (hk : k ≤ 9) {room : ℕ} (hroom : k ≤ room)
    {frac scale : UInt32} (hscale : scale.toNat = 10 ^ k) :
    (fracDigitsLoop frac scale room).length = k ∧
      (((fracDigitsLoop frac scale room).reverse.zip fracQ32Place).foldl
        (fun (sum : UInt64) (p : UInt64 × UInt64) => sum + p.1 * p.2) 0).toNat =
          placeSum k frac.toNat := by
  -- The loop finds the last digit first, the sum adds it last.
  have hone : (1 : UInt32).toNat = 1 := rfl
  have hten : (10 : UInt32).toNat = 10 := rfl
  induction k generalizing room frac scale with
  | zero =>
    have hstop : fracDigitsLoop frac scale room = [] := by
      cases room with
      | zero => rfl
      | succ room =>
        rw [fracDigitsLoop, if_neg]
        rw [gt_iff_lt, UInt32.lt_iff_toNat_lt, hscale, hone]
        decide
    rw [hstop]
    exact ⟨rfl, rfl⟩
  | succ k ih =>
    obtain ⟨room, rfl⟩ := Nat.exists_eq_succ_of_ne_zero (by omega : room ≠ 0)
    have hmore : scale > 1 := by
      rw [gt_iff_lt, UInt32.lt_iff_toNat_lt, hscale, hone]
      exact Nat.one_lt_pow (Nat.succ_ne_zero k) (by decide)
    have hnext : (scale / 10).toNat = 10 ^ k := by
      rw [UInt32.toNat_div, hscale, hten, pow_succ, Nat.mul_div_cancel _ (by decide)]
    obtain ⟨hlength, hsum⟩ := ih (by omega) (Nat.le_of_succ_le_succ hroom) hnext
    have hplace : fracQ32Place[(fracDigitsLoop (frac / 10) (scale / 10) room).reverse.length]? =
        some (fracQ32Place.getD k 0) := by
      rw [List.length_reverse, hlength]
      exact getElem?_fracQ32Place (by omega)
    have hdigit : ((frac % 10).toUInt64 * fracQ32Place.getD k 0).toNat =
        frac.toNat % 10 * place k := by
      have hbound := place_le k
      have hlt := Nat.mod_lt frac.toNat (by decide : 0 < 10)
      have hprod : frac.toNat % 10 * place k ≤ 9 * 429496730 := Nat.mul_le_mul (by omega) hbound
      rw [UInt64.toNat_mul, UInt32.toNat_toUInt64, UInt32.toNat_mod, hten]
      exact Nat.mod_eq_of_lt (hprod.trans_lt (by decide))
    rw [fracDigitsLoop, if_pos hmore, List.length_cons, hlength, List.reverse_cons,
      zip_concat _ _ hplace, List.foldl_append]
    refine ⟨rfl, ?_⟩
    rw [UInt32.toNat_div, hten] at hsum
    show (_ + (frac % 10).toUInt64 * fracQ32Place.getD k 0).toNat = _
    rw [UInt64.toNat_add, hsum, hdigit, ← placeSum]
    have hle := placeSum_le (k + 1) frac.toNat
    exact Nat.mod_eq_of_lt (hle.trans_lt (by omega))

theorem toNat_fracQ32 {k : ℕ} (hk : k ≤ 9) {frac scale : UInt32} (hscale : scale.toNat = 10 ^ k) :
    (fracQ32 frac scale).toNat = placeSum k frac.toNat :=
  (fracDigitsLoop_spec k hk hk hscale).2

theorem placeSum_nine {f : ℕ} (h : f < 10 ^ 9) :
    placeSum 9 f + 5 * (f / 10 ^ 3) + 3 * (f / 10 ^ 5) + 3 * (f / 10 ^ 6) =
      4 * f + 3 * (f / 10) + 3 * (f / 10 ^ 7) := by
  have hplaces : place 0 = 429496730 ∧ place 1 = 42949673 ∧ place 2 = 4294967 ∧ place 3 = 429497 ∧
      place 4 = 42950 ∧ place 5 = 4295 ∧ place 6 = 430 ∧ place 7 = 43 ∧ place 8 = 4 := by decide
  obtain ⟨h0, h1, h2, h3, h4, h5, h6, h7, h8⟩ := hplaces
  simp only [placeSum, h0, h1, h2, h3, h4, h5, h6, h7, h8]
  omega

/-- A number of units of the ninth decimal place, in units of the 32nd binary place, as the table
has it. -/
def tableQ32 (n : ℕ) : ℕ := n / 10 ^ 9 * 2 ^ 32 + placeSum 9 (n % 10 ^ 9)

theorem tableQ32_eq (n : ℕ) :
    tableQ32 n + 5 * (n / 10 ^ 3) + 3 * (n / 10 ^ 5) + 3 * (n / 10 ^ 6) + 4 * (n / 10 ^ 9) =
      4 * n + 3 * (n / 10) + 3 * (n / 10 ^ 7) := by
  have hnine := placeSum_nine (Nat.mod_lt n (by decide : 0 < 10 ^ 9))
  rw [tableQ32]
  omega

def billionths (whole frac : List UInt8) : ℕ :=
  digitsValue whole * 10 ^ 9 + digitsValue (frac.take 9) * 10 ^ (9 - (frac.take 9).length)

/-- The fixed-point number of `mc_decimal_to_double`. -/
def decimalQ32 (whole frac scale : UInt32) : UInt64 :=
  (whole.toUInt64 <<< 32) + (if frac ≠ 0 then fracQ32 frac scale else 0)

theorem toNat_decimalQ32 {whole frac scale : UInt32} {k : ℕ} (hk : k ≤ 9)
    (hwhole : whole.toNat ≤ 30000000) (hscale : scale.toNat = 10 ^ k) (hfrac : frac.toNat < 10 ^ k) :
    (decimalQ32 whole frac scale).toNat =
      tableQ32 (whole.toNat * 10 ^ 9 + frac.toNat * 10 ^ (9 - k)) := by
  have hshift : (whole.toUInt64 <<< 32).toNat = whole.toNat * 2 ^ 32 := by
    have htoNat : whole.toUInt64.toNat = whole.toNat := UInt32.toNat_toUInt64 whole
    rw [← htoNat]
    exact U64.toNat_shiftLeft (n := 32) (by decide) (by omega)
  have hterm : (if frac ≠ 0 then fracQ32 frac scale else 0).toNat = placeSum k frac.toNat := by
    by_cases hzero : frac = 0
    · have hsum : ∀ k, placeSum k 0 = 0 := by
        intro k
        induction k with
        | zero => rfl
        | succ k ih => simp [placeSum, ih]
      rw [if_neg (not_not.mpr hzero), hzero]
      exact (hsum k).symm
    · rw [if_pos hzero, toNat_fracQ32 hk hscale]
  have hpad : frac.toNat * 10 ^ (9 - k) < 10 ^ 9 := by
    calc frac.toNat * 10 ^ (9 - k) < 10 ^ k * 10 ^ (9 - k) := by gcongr
      _ = 10 ^ 9 := by rw [← pow_add, Nat.add_sub_cancel' hk]
  have hsum : placeSum 9 (frac.toNat * 10 ^ (9 - k)) = placeSum k frac.toNat := by
    have h := placeSum_mul_pow k (9 - k) frac.toNat
    rwa [Nat.add_sub_cancel' hk] at h
  have hbound := placeSum_le k frac.toNat
  have hdiv : (whole.toNat * 10 ^ 9 + frac.toNat * 10 ^ (9 - k)) / 10 ^ 9 = whole.toNat := by
    omega
  have hmod : (whole.toNat * 10 ^ 9 + frac.toNat * 10 ^ (9 - k)) % 10 ^ 9 =
      frac.toNat * 10 ^ (9 - k) := by
    omega
  rw [decimalQ32, UInt64.toNat_add, hshift, hterm, tableQ32, hdiv, hmod, hsum]
  exact Nat.mod_eq_of_lt (by omega)

def assembleDouble (negative : Bool) (exponent : ℤ) (mantissa : UInt64) : Float64Bits :=
  let bits := (UInt64.ofNat (exponent + 1023).toNat <<< 52) ||| (mantissa &&& 0x000fffffffffffff)
  if negative then bits ||| 0x8000000000000000 else bits

theorem toNat_assembleDouble (negative : Bool) {exponent : ℤ} {e : ℕ} (mantissa : UInt64)
    (hexponent : exponent + 1023 = e) (he : e < 2 ^ 11) :
    (assembleDouble negative exponent mantissa).toNat =
      BinaryFormat.binary64.pack negative e (mantissa.toNat % 2 ^ 52) := by
  have hfield : (UInt64.ofNat e <<< 52).toNat = 2 ^ 52 * e := by
    have hsmall : (UInt64.ofNat e).toNat = e := by
      rw [UInt64.toNat_ofNat']
      omega
    rw [Nat.mul_comm]
    exact (U64.toNat_shiftLeft (n := 52) (by decide) (by omega)).trans (by rw [hsmall])
  have hmask : (mantissa &&& 0x000fffffffffffff).toNat = mantissa.toNat % 2 ^ 52 := by
    rw [UInt64.toNat_and]
    exact Nat.and_two_pow_sub_one_eq_mod _ 52
  have hlt : mantissa.toNat % 2 ^ 52 < 2 ^ 52 := Nat.mod_lt _ (Nat.two_pow_pos 52)
  have hbits : ((UInt64.ofNat e <<< 52) ||| (mantissa &&& 0x000fffffffffffff)).toNat =
      2 ^ 52 * e + mantissa.toNat % 2 ^ 52 := by
    rw [UInt64.toNat_or, hfield, hmask, Nat.two_pow_add_eq_or_of_lt hlt e]
  have hpack : ∀ negative, BinaryFormat.binary64.pack negative e (mantissa.toNat % 2 ^ 52) =
      2 ^ 63 * negative.toNat + (2 ^ 52 * e + mantissa.toNat % 2 ^ 52) := by
    intro negative
    simp only [BinaryFormat.pack, BinaryFormat.binary64]
    ring
  have htop : 2 ^ 52 * e + mantissa.toNat % 2 ^ 52 < 2 ^ 63 := by omega
  rw [assembleDouble, hexponent, Int.toNat_natCast, hpack]
  cases negative with
  | false => exact hbits.trans (Nat.zero_add _).symm
  | true =>
    show ((UInt64.ofNat e <<< 52 ||| mantissa &&& 0x000fffffffffffff) ||| 0x8000000000000000).toNat = _
    rw [UInt64.toNat_or, hbits, Nat.or_comm]
    exact (Nat.two_pow_add_eq_or_of_lt htop 1).symm

/-- `bits` is the double nearest to `q` units of the 32nd binary place. -/
structure IsNearestDouble (negative : Bool) (q : ℕ) (bits : Float64Bits) : Prop where
  isFinite : BinaryFormat.binary64.IsFinite bits.toNat
  magnitude_eq : BinaryFormat.binary64.magnitude bits.toNat = (roundToBits 53 q : ℚ) / 2 ^ 32
  eq_zero : q = 0 → bits = 0
  normal : q ≠ 0 → BinaryFormat.binary64.exponent bits.toNat ≠ 0
  sign_eq : q ≠ 0 → BinaryFormat.binary64.sign bits.toNat = negative

theorem isNearestDouble_assembleDouble (negative : Bool) {exponent : ℤ} {e q : ℕ}
    {mantissa : UInt64} (hexponent : exponent + 1023 = e) (hpos : e ≠ 0) (he : e < 2047)
    (hlow : 2 ^ 52 ≤ mantissa.toNat) (hhigh : mantissa.toNat < 2 ^ 53) (hq : q ≠ 0)
    (hvalue : (mantissa.toNat : ℚ) * 2 ^ (exponent - 52) = roundToBits 53 q / 2 ^ 32) :
    IsNearestDouble negative q (assembleDouble negative exponent mantissa) := by
  have hfraction : mantissa.toNat % 2 ^ 52 < 2 ^ BinaryFormat.binary64.fractionBits :=
    Nat.mod_lt _ (Nat.two_pow_pos 52)
  have hfield : e < 2 ^ BinaryFormat.binary64.exponentBits := by
    show e < 2048
    omega
  have htoNat := toNat_assembleDouble negative mantissa hexponent (by omega)
  refine ⟨?_, ?_, fun hzero => absurd hzero hq, fun _ => ?_, fun _ => ?_⟩
  · rw [htoNat, BinaryFormat.IsFinite, BinaryFormat.exponent_pack hfield hfraction]
    exact he.ne
  · have hsignificand : 2 ^ BinaryFormat.binary64.fractionBits + mantissa.toNat % 2 ^ 52 =
        mantissa.toNat := by
      show 2 ^ 52 + mantissa.toNat % 2 ^ 52 = mantissa.toNat
      omega
    have hscale : (e : ℤ) - BinaryFormat.binary64.bias - BinaryFormat.binary64.fractionBits =
        exponent - 52 := by
      show (e : ℤ) - 1023 - 52 = exponent - 52
      omega
    rw [htoNat, BinaryFormat.magnitude_pack hfield hpos hfraction, hsignificand, hscale, hvalue]
  · rw [htoNat, BinaryFormat.exponent_pack hfield hfraction]
    exact hpos
  · rw [htoNat, BinaryFormat.sign_pack hfield hfraction]

/-- The mantissa of a fixed-point number, rounded to 53 bits, and its exponent. -/
def roundedMantissa (q32 : UInt64) : UInt64 × ℤ :=
  let msb := q32.toNat.log2
  let exponent : ℤ := (msb : ℤ) - 32
  let shift : ℤ := 52 - msb
  if shift ≥ 0 then (q32 <<< UInt64.ofNat shift.toNat, exponent)
  else
    let mantissa := mcRoundShiftU64 q32 (-shift).toNat
    if mantissa >>> 53 ≠ 0 then (mantissa >>> 1, exponent + 1) else (mantissa, exponent)

theorem mcDecimalToDouble_eq (negative : Bool) (whole frac scale : UInt32) :
    mcDecimalToDouble negative whole frac scale =
      if decimalQ32 whole frac scale = 0 then 0
      else
        assembleDouble negative (roundedMantissa (decimalQ32 whole frac scale)).2
          (roundedMantissa (decimalQ32 whole frac scale)).1 := rfl

theorem roundedMantissa_spec {q32 : UInt64} (hq : q32.toNat ≠ 0) (hlarge : q32.toNat < 2 ^ 57) :
    2 ^ 52 ≤ (roundedMantissa q32).1.toNat ∧ (roundedMantissa q32).1.toNat < 2 ^ 53 ∧
      -32 ≤ (roundedMantissa q32).2 ∧ (roundedMantissa q32).2 ≤ 25 ∧
      ((roundedMantissa q32).1.toNat : ℚ) * 2 ^ ((roundedMantissa q32).2 - 52) =
        roundToBits 53 q32.toNat / 2 ^ 32 := by
  -- The leading bit is bit 52, and the mantissa with its exponent is the nearest number of 53 bits.
  have hlow := Nat.log2_self_le hq
  have hhigh := Nat.lt_log2_self (n := q32.toNat)
  have hmsb : q32.toNat.log2 < 57 := (Nat.log2_lt hq).mpr hlarge
  rw [roundedMantissa]
  dsimp only
  generalize hlog : q32.toNat.log2 = msb at *
  by_cases hexact : (52 : ℤ) - msb ≥ 0
  · -- all bits fit
    obtain ⟨s, hs⟩ := Int.eq_ofNat_of_zero_le hexact
    have hsum : msb + s = 52 := by omega
    have hwide : q32.toNat * 2 ^ s < 2 ^ 53 := by
      calc q32.toNat * 2 ^ s < 2 ^ (msb + 1) * 2 ^ s := by gcongr
        _ = 2 ^ 53 := by rw [← pow_add, Nat.add_right_comm, hsum]
    have hleading : 2 ^ 52 ≤ q32.toNat * 2 ^ s := by
      calc 2 ^ 52 = 2 ^ msb * 2 ^ s := by rw [← pow_add, hsum]
        _ ≤ q32.toNat * 2 ^ s := by gcongr
    have hshift : (q32 <<< UInt64.ofNat s).toNat = q32.toNat * 2 ^ s :=
      U64.toNat_shiftLeft (by omega) (by omega)
    rw [if_pos hexact, hs, Int.toNat_natCast, hshift]
    refine ⟨hleading, hwide, by omega, by omega, ?_⟩
    have hfew : q32.toNat < 2 ^ 53 := hhigh.trans_le (Nat.pow_le_pow_right (by decide) (by omega))
    have hexp : (msb : ℤ) - 32 - 52 = -(s : ℤ) - 32 := by omega
    rw [roundToBits_of_lt hfew, hexp, sub_eq_add_neg (-(s : ℤ)), zpow_add₀ (by norm_num),
      zpow_neg, zpow_natCast]
    push_cast
    field_simp
  · obtain ⟨s, hs⟩ := Int.eq_ofNat_of_zero_le (by omega : 0 ≤ -((52 : ℤ) - msb))
    have hsum : msb = 52 + s := by omega
    have hround : (mcRoundShiftU64 q32 s).toNat = roundShift q32.toNat s :=
      toNat_mcRoundShiftU64 (by omega) s
    have hlogs : q32.toNat.log2 + 1 - 53 = s := by omega
    have hbounds := roundShift_bounds (p := 53) (by decide) hq (by omega)
    have hrounded : roundToBits 53 q32.toNat = roundShift q32.toNat s * 2 ^ s := by
      rw [roundToBits, hlogs]
    rw [hlogs] at hbounds
    have hcarry : (mcRoundShiftU64 q32 s >>> 53).toNat = roundShift q32.toNat s / 2 ^ 53 := by
      rw [← hround]
      exact U64.toNat_shiftRight _ (n := 53) (by decide)
    rw [if_neg hexact, hs, Int.toNat_natCast]
    have hexp : (msb : ℤ) - 32 - 52 = (s : ℤ) - 32 := by omega
    by_cases hfull : roundShift q32.toNat s = 2 ^ 53
    · -- the rounding carried into a new leading bit
      have hne : mcRoundShiftU64 q32 s >>> 53 ≠ 0 := by
        intro hzero
        rw [hzero, hfull] at hcarry
        exact absurd hcarry (by decide)
      have hhalf : (mcRoundShiftU64 q32 s >>> 1).toNat = 2 ^ 52 := by
        have h := U64.toNat_shiftRight (mcRoundShiftU64 q32 s) (n := 1) (by decide)
        rw [hround, hfull] at h
        exact h
      rw [if_pos hne]
      dsimp only
      rw [hhalf]
      refine ⟨Nat.le_refl _, by decide, by omega, by omega, ?_⟩
      rw [hrounded, hfull, show (msb : ℤ) - 32 + 1 - 52 = (s : ℤ) - 32 + 1 by omega,
        zpow_add₀ (by norm_num), zpow_sub₀ (by norm_num), zpow_natCast]
      push_cast
      norm_num
      ring
    · have hzero : ¬mcRoundShiftU64 q32 s >>> 53 ≠ 0 := by
        rw [not_not, ← UInt64.toNat_inj, hcarry]
        exact Nat.div_eq_of_lt (lt_of_le_of_ne hbounds.2 hfull)
      rw [if_neg hzero]
      dsimp only
      rw [hround]
      refine ⟨hbounds.1, lt_of_le_of_ne hbounds.2 hfull, by omega, by omega, ?_⟩
      rw [hrounded, hexp, zpow_sub₀ (by norm_num), zpow_natCast]
      push_cast
      norm_num
      ring

/-- The assembled double is the nearest one. -/
theorem isNearestDouble_mcDecimalToDouble (negative : Bool) {whole frac scale : UInt32} {q : ℕ}
    (hq32 : (decimalQ32 whole frac scale).toNat = q) (hlarge : q < 2 ^ 57) :
    IsNearestDouble negative q (mcDecimalToDouble negative whole frac scale) := by
  rw [mcDecimalToDouble_eq]
  generalize decimalQ32 whole frac scale = q32 at *
  subst hq32
  by_cases hzero : q32 = 0
  · have hq : q32.toNat = 0 := by rw [hzero]; rfl
    rw [if_pos hzero, hq]
    refine ⟨by decide, ?_, fun _ => rfl, fun h => absurd rfl h, fun h => absurd rfl h⟩
    rw [roundToBits_of_lt (by decide)]
    simp [BinaryFormat.magnitude, BinaryFormat.exponent, BinaryFormat.fraction]
  · have hq : q32.toNat ≠ 0 := fun h => hzero (UInt64.toNat_inj.mp h)
    obtain ⟨hlow, hhigh, hmin, hmax, hvalue⟩ := roundedMantissa_spec hq hlarge
    obtain ⟨e, he⟩ := Int.eq_ofNat_of_zero_le (by omega : 0 ≤ (roundedMantissa q32).2 + 1023)
    rw [if_neg hzero]
    exact isNearestDouble_assembleDouble negative he (by omega) (by omega) hlow hhigh hq hvalue

/-! How far the table and the rounding are from what was typed. -/

theorem tableQ32_near (n : ℕ) :
    tableQ32 n * 10 ^ 9 ≤ n * 2 ^ 32 + 15 * 10 ^ 9 ∧ n * 2 ^ 32 ≤ tableQ32 n * 10 ^ 9 + 6 * 10 ^ 9 := by
  have h := tableQ32_eq n
  have h1 := Nat.div_add_mod n 10
  have h3 := Nat.div_add_mod n (10 ^ 3)
  have h5 := Nat.div_add_mod n (10 ^ 5)
  have h6 := Nat.div_add_mod n (10 ^ 6)
  have h7 := Nat.div_add_mod n (10 ^ 7)
  have h9 := Nat.div_add_mod n (10 ^ 9)
  have r1 := Nat.mod_lt n (by decide : 0 < 10)
  have r3 := Nat.mod_lt n (by decide : 0 < 10 ^ 3)
  have r5 := Nat.mod_lt n (by decide : 0 < 10 ^ 5)
  have r6 := Nat.mod_lt n (by decide : 0 < 10 ^ 6)
  have r7 := Nat.mod_lt n (by decide : 0 < 10 ^ 7)
  have r9 := Nat.mod_lt n (by decide : 0 < 10 ^ 9)
  -- the remainders of the divisions are all that is left of the difference
  generalize tableQ32 n = t at *
  generalize n / 10 = q1, n / 10 ^ 3 = q3, n / 10 ^ 5 = q5, n / 10 ^ 6 = q6, n / 10 ^ 7 = q7,
    n / 10 ^ 9 = q9 at *
  generalize n % 10 = m1, n % 10 ^ 3 = m3, n % 10 ^ 5 = m5, n % 10 ^ 6 = m6, n % 10 ^ 7 = m7,
    n % 10 ^ 9 = m9 at *
  constructor <;> linarith

theorem placeSum_le_nines (k f : ℕ) : placeSum k f ≤ 9 * ∑ j ∈ Finset.range k, place j := by
  induction k generalizing f with
  | zero => exact Nat.zero_le _
  | succ k ih =>
    have hdigit : f % 10 * place k ≤ 9 * place k :=
      Nat.mul_le_mul_right _ (Nat.le_of_lt_succ (Nat.mod_lt f (by decide)))
    rw [placeSum, Finset.sum_range_succ, Nat.mul_add]
    exact Nat.add_le_add (ih (f / 10)) hdigit

theorem placeSum_nine_le (f : ℕ) : placeSum 9 f ≤ 2 ^ 32 + 5 :=
  (placeSum_le_nines 9 f).trans (by decide)

theorem roundToBits_tableQ32_le {n : ℕ} (h : n ≤ 30000000 * 10 ^ 9) :
    roundToBits 53 (tableQ32 n) ≤ 30000000 * 2 ^ 32 := by
  -- At the limit of the coordinates the excess of the table is rounded away.
  have hexact : roundToBits 53 (30000000 * 2 ^ 32 + 5) = 30000000 * 2 ^ 32 := by decide +kernel
  have htable : tableQ32 n ≤ 30000000 * 2 ^ 32 + 5 := by
    rcases Nat.lt_or_ge n (30000000 * 10 ^ 9) with hlt | hge
    · have hfrac := placeSum_nine_le (n % 10 ^ 9)
      rw [tableQ32]
      omega
    · have heq : n = 30000000 * 10 ^ 9 := by omega
      rw [heq]
      decide
  exact (roundToBits_mono (by decide) htable).trans_eq hexact

theorem tableQ32_lt {n : ℕ} (h : n ≤ 30000000 * 10 ^ 9) : tableQ32 n < 2 ^ 57 := by
  have hnear := (tableQ32_near n).1
  omega

theorem billionths_le (whole : List UInt8) {frac : List UInt8} (hfrac : IsDigits frac) :
    (billionths whole frac : ℚ) ≤ decimalAbs whole frac * 10 ^ 9 ∧
      decimalAbs whole frac * 10 ^ 9 < billionths whole frac + 1 := by
  -- Digits behind the ninth are cut off.
  generalize htop : frac.take 9 = top
  generalize hrest : frac.drop 9 = rest
  have hsplit : frac = top ++ rest := by rw [← htop, ← hrest, List.take_append_drop]
  have hvalue : digitsValue frac = digitsValue top * 10 ^ rest.length + digitsValue rest := by
    rw [hsplit, digitsValue, digitsFrom_append, digitsFrom_eq]
    rfl
  have hrestDigits : IsDigits rest := by
    intro ch hch
    exact hfrac ch (hsplit ▸ List.mem_append_right _ hch)
  have hsmall : (digitsValue rest : ℚ) < 10 ^ rest.length := by
    exact_mod_cast digitsValue_lt hrestDigits
  have htopLength : top.length ≤ 9 := by
    rw [← htop, List.length_take]
    exact min_le_left _ _
  have hfull : rest = [] ∨ top.length = 9 := by
    rw [← htop, ← hrest, List.length_take, List.drop_eq_nil_iff]
    omega
  have hpow : (10 : ℚ) ^ 9 = 10 ^ top.length * 10 ^ (9 - top.length) := by
    rw [← pow_add, Nat.add_sub_cancel' htopLength]
  have hexact : decimalAbs whole frac * 10 ^ 9 = billionths whole frac +
      digitsValue rest / 10 ^ rest.length * 10 ^ (9 - top.length) := by
    rw [decimalAbs, billionths, htop, hvalue, hsplit, List.length_append, pow_add]
    push_cast
    rw [hpow]
    field_simp
    linear_combination (-(digitsValue whole * 10 ^ rest.length : ℚ)) * hpow
  rw [hexact]
  rcases hfull with rfl | hnine
  · simp [digitsValue, digitsFrom]
  · rw [hnine, Nat.sub_self, pow_zero, mul_one]
    have hlt : (digitsValue rest : ℚ) / 10 ^ rest.length < 1 :=
      (div_lt_one (by positivity)).mpr hsmall
    have hnonneg : (0 : ℚ) ≤ digitsValue rest / 10 ^ rest.length := by positivity
    constructor <;> linarith

end StarrySky.Core
