import Mathlib

/-! Rounding to the nearest integer with ties to even, of rationals and of binary fractions. -/

namespace StarrySky.Base

/-- The nearest integer, and of two that are equally near the even one. -/
def roundHalfEven (q : ℚ) : ℤ :=
  if Int.fract q < 1 / 2 then ⌊q⌋
  else if 1 / 2 < Int.fract q then ⌊q⌋ + 1
  else ⌊q⌋ + ⌊q⌋ % 2

theorem floor_le_roundHalfEven (q : ℚ) : ⌊q⌋ ≤ roundHalfEven q := by
  rw [roundHalfEven]
  split_ifs <;> omega

theorem roundHalfEven_le_floor_add_one (q : ℚ) : roundHalfEven q ≤ ⌊q⌋ + 1 := by
  rw [roundHalfEven]
  split_ifs <;> omega

theorem abs_sub_roundHalfEven_le (q : ℚ) : |q - roundHalfEven q| ≤ 1 / 2 := by
  have hfract := Int.self_sub_floor q
  have hlow := Int.fract_nonneg q
  have hhigh := Int.fract_lt_one q
  rw [abs_le, roundHalfEven]
  split_ifs with hbelow habove
  · constructor <;> linarith
  · push_cast
    constructor <;> linarith
  · -- a tie is half away from both neighbours
    have htie : Int.fract q = 1 / 2 := le_antisymm (not_lt.mp habove) (not_lt.mp hbelow)
    rcases Int.emod_two_eq_zero_or_one ⌊q⌋ with heven | hodd
    · rw [heven]
      push_cast
      constructor <;> linarith
    · rw [hodd]
      push_cast
      constructor <;> linarith

theorem roundHalfEven_eq_of_abs_sub_lt {q : ℚ} {n : ℤ} (h : |q - n| < 1 / 2) :
    roundHalfEven q = n := by
  have hnear := abs_sub_roundHalfEven_le q
  rw [abs_lt] at h
  rw [abs_le] at hnear
  have habove : (roundHalfEven q : ℚ) < (n + 1 : ℤ) := by
    push_cast
    linarith
  have hbelow : ((n - 1 : ℤ) : ℚ) < roundHalfEven q := by
    push_cast
    linarith
  have hlt := Int.cast_lt.mp habove
  have hgt := Int.cast_lt.mp hbelow
  omega

theorem roundHalfEven_intCast (n : ℤ) : roundHalfEven n = n :=
  roundHalfEven_eq_of_abs_sub_lt (by simp)

theorem roundHalfEven_mono {q r : ℚ} (h : q ≤ r) : roundHalfEven q ≤ roundHalfEven r := by
  have hfloor := Int.floor_le_floor h
  by_cases hsame : ⌊q⌋ = ⌊r⌋
  case neg =>
    have hle := roundHalfEven_le_floor_add_one q
    have hge := floor_le_roundHalfEven r
    omega
  have hfract : Int.fract q ≤ Int.fract r := by
    rw [Int.fract, Int.fract, hsame]
    linarith
  rw [roundHalfEven, roundHalfEven, hsame]
  split_ifs <;> first | omega | exact absurd hfract (by linarith)

/-- A number without its `s` low binary digits, rounded. -/
def roundShift (n s : ℕ) : ℕ :=
  if 2 ^ s < 2 * (n % 2 ^ s) ∨ 2 * (n % 2 ^ s) = 2 ^ s ∧ n / 2 ^ s % 2 = 1 then n / 2 ^ s + 1
  else n / 2 ^ s

theorem roundHalfEven_natCast_div (n s : ℕ) :
    roundHalfEven ((n : ℚ) / 2 ^ s) = (roundShift n s : ℤ) := by
  have hpow : (0 : ℚ) < 2 ^ s := by positivity
  have hnat : ((2 ^ s : ℕ) : ℚ) = 2 ^ s := by push_cast; rfl
  have hfloor : ⌊(n : ℚ) / 2 ^ s⌋ = ((n / 2 ^ s : ℕ) : ℤ) := by
    rw [← hnat, Rat.floor_natCast_div_natCast]
    exact (Int.natCast_ediv n (2 ^ s)).symm
  have hdivMod : (n : ℚ) = 2 ^ s * ((n / 2 ^ s : ℕ) : ℚ) + ((n % 2 ^ s : ℕ) : ℚ) := by
    rw [← hnat]
    exact_mod_cast (Nat.div_add_mod n (2 ^ s)).symm
  have hfract : Int.fract ((n : ℚ) / 2 ^ s) = ((n % 2 ^ s : ℕ) : ℚ) / 2 ^ s := by
    rw [Int.fract, hfloor, sub_eq_iff_eq_add, Int.cast_natCast]
    nth_rewrite 1 [hdivMod]
    field_simp
    ring
  have hless : Int.fract ((n : ℚ) / 2 ^ s) < 1 / 2 ↔ 2 * (n % 2 ^ s) < 2 ^ s := by
    rw [hfract, div_lt_div_iff₀ hpow (by norm_num), one_mul, mul_comm, ← hnat]
    exact_mod_cast Iff.rfl
  have hmore : 1 / 2 < Int.fract ((n : ℚ) / 2 ^ s) ↔ 2 ^ s < 2 * (n % 2 ^ s) := by
    rw [hfract, div_lt_div_iff₀ (by norm_num) hpow, one_mul, mul_comm _ (2 : ℚ), ← hnat]
    exact_mod_cast Iff.rfl
  rw [roundHalfEven, hfloor, roundShift]
  simp only [hless, hmore]
  split_ifs <;> omega

theorem roundShift_mono {m n : ℕ} (h : m ≤ n) (s : ℕ) : roundShift m s ≤ roundShift n s := by
  have hdiv : (m : ℚ) / 2 ^ s ≤ (n : ℚ) / 2 ^ s := by gcongr
  have hround := roundHalfEven_mono hdiv
  rw [roundHalfEven_natCast_div, roundHalfEven_natCast_div] at hround
  exact Int.ofNat_le.mp hround

theorem le_roundShift (n s : ℕ) : n / 2 ^ s ≤ roundShift n s := by
  rw [roundShift]
  split_ifs
  · exact Nat.le_succ _
  · exact Nat.le_refl _

theorem roundShift_le (n s : ℕ) : roundShift n s ≤ n / 2 ^ s + 1 := by
  rw [roundShift]
  split_ifs
  · exact Nat.le_refl _
  · exact Nat.le_succ _

theorem roundShift_zero (n : ℕ) : roundShift n 0 = n := by
  simp [roundShift, Nat.mod_one]

theorem roundShift_add_mul (n s k : ℕ) : roundShift (n + 2 ^ (s + 1) * k) s = roundShift n s + 2 * k := by
  -- An even number of units of the last place does not matter.
  have hpos := Nat.two_pow_pos s
  have hsplit : n + 2 ^ (s + 1) * k = n + 2 ^ s * (2 * k) := by ring
  have hdiv : (n + 2 ^ s * (2 * k)) / 2 ^ s = n / 2 ^ s + 2 * k := Nat.add_mul_div_left _ _ hpos
  have hmod : (n + 2 ^ s * (2 * k)) % 2 ^ s = n % 2 ^ s := Nat.add_mul_mod_self_left _ _ _
  have hparity : (n / 2 ^ s + 2 * k) % 2 = n / 2 ^ s % 2 := Nat.add_mul_mod_self_left _ _ _
  rw [hsplit, roundShift, roundShift, hdiv, hmod, hparity]
  split_ifs
  · ring
  · rfl

/-- The nearest number with `p` significant bits. -/
def roundToBits (p n : ℕ) : ℕ := roundShift n (n.log2 + 1 - p) * 2 ^ (n.log2 + 1 - p)

theorem roundToBits_of_lt {p n : ℕ} (h : n < 2 ^ p) : roundToBits p n = n := by
  rcases Nat.eq_zero_or_pos n with rfl | hpos
  · simp [roundToBits, roundShift]
  · have hlog := (Nat.log2_lt hpos.ne').mpr h
    rw [roundToBits, show n.log2 + 1 - p = 0 by omega, roundShift_zero, pow_zero, Nat.mul_one]

theorem roundShift_bounds {p n : ℕ} (hp : 0 < p) (hn : n ≠ 0) (h : p ≤ n.log2 + 1) :
    2 ^ (p - 1) ≤ roundShift n (n.log2 + 1 - p) ∧ roundShift n (n.log2 + 1 - p) ≤ 2 ^ p := by
  have hlow := Nat.log2_self_le hn
  have hhigh := Nat.lt_log2_self (n := n)
  generalize hs : n.log2 + 1 - p = s
  have hlog : n.log2 = p - 1 + s := by omega
  rw [hlog] at hlow hhigh
  have hfloor : 2 ^ (p - 1) ≤ n / 2 ^ s := by
    rw [Nat.le_div_iff_mul_le (Nat.two_pow_pos s), ← pow_add]
    exact hlow
  have hceil : n / 2 ^ s < 2 ^ p := by
    rw [Nat.div_lt_iff_lt_mul (Nat.two_pow_pos s), ← pow_add]
    exact hhigh.trans_eq (congrArg (2 ^ ·) (by omega))
  exact ⟨hfloor.trans (le_roundShift n s), (roundShift_le n s).trans hceil⟩

theorem roundToBits_mono {p m n : ℕ} (hp : 0 < p) (h : m ≤ n) :
    roundToBits p m ≤ roundToBits p n := by
  rcases Nat.eq_zero_or_pos m with rfl | hm
  · simp [roundToBits, roundShift]
  have hn : n ≠ 0 := by omega
  have hlog : m.log2 ≤ n.log2 := by
    rw [Nat.log2_eq_log_two, Nat.log2_eq_log_two]
    exact Nat.log_mono_right h
  by_cases hsame : m.log2 = n.log2
  · rw [roundToBits, roundToBits, hsame]
    exact Nat.mul_le_mul_right _ (roundShift_mono h _)
  by_cases hfit : n < 2 ^ p
  · rw [roundToBits_of_lt hfit, roundToBits_of_lt (h.trans_lt hfit)]
    exact h
  -- the smaller one stays below the power of two at which the larger one starts
  have hlarge : p ≤ n.log2 := (Nat.le_log2 hn).mpr (Nat.le_of_not_lt hfit)
  have hbelow : roundToBits p m ≤ 2 ^ n.log2 := by
    by_cases hsmall : m < 2 ^ p
    · rw [roundToBits_of_lt hsmall]
      exact hsmall.le.trans (Nat.pow_le_pow_right (by decide) hlarge)
    · have hbits : p ≤ m.log2 := (Nat.le_log2 hm.ne').mpr (Nat.le_of_not_lt hsmall)
      calc roundToBits p m
          ≤ 2 ^ p * 2 ^ (m.log2 + 1 - p) :=
            Nat.mul_le_mul_right _ (roundShift_bounds hp hm.ne' (by omega)).2
        _ = 2 ^ (m.log2 + 1) := by rw [← pow_add]; congr 1; omega
        _ ≤ 2 ^ n.log2 := Nat.pow_le_pow_right (by decide) (by omega)
  have habove : 2 ^ n.log2 ≤ roundToBits p n := by
    calc 2 ^ n.log2 = 2 ^ (p - 1) * 2 ^ (n.log2 + 1 - p) := by rw [← pow_add]; congr 1; omega
      _ ≤ roundToBits p n := Nat.mul_le_mul_right _ (roundShift_bounds hp hn (by omega)).1
  exact hbelow.trans habove

theorem abs_roundToBits_sub_le (p n : ℕ) :
    |(roundToBits p n : ℚ) - n| ≤ 2 ^ (n.log2 + 1 - p) / 2 := by
  generalize hs : n.log2 + 1 - p = s
  have hpow : (0 : ℚ) < 2 ^ s := by positivity
  have herror := abs_sub_roundHalfEven_le ((n : ℚ) / 2 ^ s)
  rw [roundHalfEven_natCast_div, Int.cast_natCast] at herror
  have hscale : (roundToBits p n : ℚ) - n = -(((n : ℚ) / 2 ^ s - roundShift n s) * 2 ^ s) := by
    rw [roundToBits, hs, sub_mul, div_mul_cancel₀ _ hpow.ne']
    push_cast
    ring
  rw [hscale, abs_neg, abs_mul, abs_of_pos hpow]
  calc |(n : ℚ) / 2 ^ s - roundShift n s| * 2 ^ s
      ≤ 1 / 2 * 2 ^ s := by gcongr
    _ = 2 ^ s / 2 := by ring

end StarrySky.Base
