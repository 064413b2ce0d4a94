import StarrySky.Core.CoordinateAccuracy

/-! Which pairs of coordinates are read in the wrong order. The table entry of the seventh place is
a unit too large, so that the nines below some round numbers add up to more than the number. -/

namespace StarrySky.Core
open StarrySky.Base

/-- How far the table falls on the last step to `n` billionths, a multiple of `10 ^ 5`. -/
def tableDrop (n : ℕ) : ℕ :=
  if 10 ^ 9 ∣ n then 5 else if 10 ^ 6 ∣ n ∧ ¬10 ^ 7 ∣ n then 4 else 1

theorem tableQ32_succ (n : ℕ) :
    (10 ^ 5 ∣ n + 1 → tableQ32 n = tableQ32 (n + 1) + tableDrop (n + 1)) ∧
    (¬10 ^ 5 ∣ n + 1 → tableQ32 n + 2 ≤ tableQ32 (n + 1)) ∧
    (¬10 ∣ n + 1 → tableQ32 (n + 1) = tableQ32 n + 4) := by
  have hbefore := tableQ32_eq n
  have hafter := tableQ32_eq (n + 1)
  have h31 : 10 ^ 3 ∣ n + 1 → 10 ∣ n + 1 := Nat.dvd_trans (by decide)
  have h53 : 10 ^ 5 ∣ n + 1 → 10 ^ 3 ∣ n + 1 := Nat.dvd_trans (by decide)
  have h65 : 10 ^ 6 ∣ n + 1 → 10 ^ 5 ∣ n + 1 := Nat.dvd_trans (by decide)
  have h76 : 10 ^ 7 ∣ n + 1 → 10 ^ 6 ∣ n + 1 := Nat.dvd_trans (by decide)
  have h97 : 10 ^ 9 ∣ n + 1 → 10 ^ 7 ∣ n + 1 := Nat.dvd_trans (by decide)
  rw [Nat.succ_div, Nat.succ_div, Nat.succ_div, Nat.succ_div, Nat.succ_div, Nat.succ_div] at hafter
  rw [tableDrop]
  generalize tableQ32 (n + 1) = t' at *
  generalize tableQ32 n = t at *
  generalize n / 10 = q1, n / 10 ^ 3 = q3, n / 10 ^ 5 = q5, n / 10 ^ 6 = q6, n / 10 ^ 7 = q7,
    n / 10 ^ 9 = q9 at *
  -- the carry goes through as many places as the number ends in zeros
  by_cases h1 : 10 ∣ n + 1
  case neg =>
    have h3 := mt h31 h1
    have h5 := mt h53 h3
    have h6 := mt h65 h5
    have h7 := mt h76 h6
    have h9 := mt h97 h7
    rw [if_neg h1, if_neg h3, if_neg h5, if_neg h6, if_neg h7, if_neg h9] at hafter
    exact ⟨fun h => absurd h h5, fun _ => by linarith, fun _ => by linarith⟩
  by_cases h3 : 10 ^ 3 ∣ n + 1
  case neg =>
    have h5 := mt h53 h3
    have h6 := mt h65 h5
    have h7 := mt h76 h6
    have h9 := mt h97 h7
    rw [if_pos h1, if_neg h3, if_neg h5, if_neg h6, if_neg h7, if_neg h9] at hafter
    exact ⟨fun h => absurd h h5, fun _ => by linarith, fun h => absurd h1 h⟩
  by_cases h5 : 10 ^ 5 ∣ n + 1
  case neg =>
    have h6 := mt h65 h5
    have h7 := mt h76 h6
    have h9 := mt h97 h7
    rw [if_pos h1, if_pos h3, if_neg h5, if_neg h6, if_neg h7, if_neg h9] at hafter
    exact ⟨fun h => absurd h h5, fun _ => by linarith, fun h => absurd h1 h⟩
  refine ⟨fun _ => ?_, fun h => absurd h5 h, fun h => absurd h1 h⟩
  by_cases h6 : 10 ^ 6 ∣ n + 1
  case neg =>
    have h7 := mt h76 h6
    have h9 := mt h97 h7
    rw [if_pos h1, if_pos h3, if_pos h5, if_neg h6, if_neg h7, if_neg h9] at hafter
    rw [if_neg h9, if_neg (fun h => h6 h.1)]
    linarith
  by_cases h7 : 10 ^ 7 ∣ n + 1
  case neg =>
    have h9 := mt h97 h7
    rw [if_pos h1, if_pos h3, if_pos h5, if_pos h6, if_neg h7, if_neg h9] at hafter
    rw [if_neg h9, if_pos ⟨h6, h7⟩]
    linarith
  by_cases h9 : 10 ^ 9 ∣ n + 1
  · rw [if_pos h1, if_pos h3, if_pos h5, if_pos h6, if_pos h7, if_pos h9] at hafter
    rw [if_pos h9]
    linarith
  · rw [if_pos h1, if_pos h3, if_pos h5, if_pos h6, if_pos h7, if_neg h9] at hafter
    rw [if_neg h9, if_neg (fun h => h.2 h7)]
    linarith

theorem tableDrop_le (n : ℕ) : tableDrop n ≤ 5 := by
  rw [tableDrop]
  split_ifs <;> decide

theorem tableQ32_le_succ_add (n : ℕ) : tableQ32 n ≤ tableQ32 (n + 1) + 5 := by
  obtain ⟨hround, hother, _⟩ := tableQ32_succ n
  have hdrop := tableDrop_le (n + 1)
  by_cases h : 10 ^ 5 ∣ n + 1
  · rw [hround h]
    exact Nat.add_le_add_left hdrop _
  · exact (Nat.le_add_right _ 2).trans ((hother h).trans (Nat.le_add_right _ 5))

theorem tableQ32_le_of_three {m n : ℕ} (h : m + 3 ≤ n) : tableQ32 m ≤ tableQ32 n := by
  -- From the third step on the other steps make up for a fall.
  have hstep : ∀ k l, k + 1 = l → (¬10 ∣ l → tableQ32 l = tableQ32 k + 4) ∧
      tableQ32 k ≤ tableQ32 l + 5 := by
    rintro k _ rfl
    exact ⟨(tableQ32_succ k).2.2, tableQ32_le_succ_add k⟩
  have hwindow : ∀ k, tableQ32 k ≤ tableQ32 (k + 3) ∧ tableQ32 k ≤ tableQ32 (k + 4) ∧
      tableQ32 k ≤ tableQ32 (k + 5) := by
    intro k
    obtain ⟨h0, h0'⟩ := hstep k (k + 1) rfl
    obtain ⟨h1, h1'⟩ := hstep (k + 1) (k + 2) rfl
    obtain ⟨h2, h2'⟩ := hstep (k + 2) (k + 3) rfl
    obtain ⟨h3, h3'⟩ := hstep (k + 3) (k + 4) rfl
    obtain ⟨h4, h4'⟩ := hstep (k + 4) (k + 5) rfl
    clear hstep h
    refine ⟨?_, ?_, ?_⟩ <;> omega
  obtain ⟨g, rfl⟩ := Nat.exists_eq_add_of_le h
  induction g using Nat.strong_induction_on generalizing m with
  | _ g ih =>
    match g with
    | 0 => exact (hwindow m).1
    | 1 => exact (hwindow m).2.1
    | 2 => exact (hwindow m).2.2
    | g + 3 =>
      have hrest := @ih g (by omega) (m + 3) (Nat.le_add_right _ _)
      rw [Nat.add_right_comm (m + 3) 3 g] at hrest
      exact (hwindow m).1.trans hrest

theorem tableQ32_add_two (n : ℕ) :
    (10 ^ 5 ∣ n + 2 → tableQ32 n + 4 = tableQ32 (n + 2) + tableDrop (n + 2)) ∧
    (10 ^ 5 ∣ n + 1 → tableQ32 n = tableQ32 (n + 1) + tableDrop (n + 1) ∧
      tableQ32 (n + 2) = tableQ32 (n + 1) + 4) ∧
    (¬10 ^ 5 ∣ n + 2 → ¬10 ^ 5 ∣ n + 1 → tableQ32 n ≤ tableQ32 (n + 2)) := by
  -- Only one of two steps goes to a round number.
  obtain ⟨hround, hother, hplain⟩ := tableQ32_succ n
  obtain ⟨hround', hother', hplain'⟩ := tableQ32_succ (n + 1)
  have hten : ∀ k, 10 ^ 5 ∣ k → 10 ∣ k := fun k => Nat.dvd_trans (by decide)
  refine ⟨fun h => ?_, fun h => ⟨hround h, ?_⟩, fun h h' => ?_⟩
  · have hten' := hten _ h
    rw [← hplain (by omega)]
    exact hround' h
  · have hten' := hten _ h
    exact hplain' (by omega)
  · have h1 := hother h'
    have h2 : tableQ32 (n + 1) + 2 ≤ tableQ32 (n + 2) := hother' h
    exact (Nat.le_add_right _ 2).trans (h1.trans ((Nat.le_add_right _ 2).trans h2))

/-! Rounding. -/

/-- The binary places that a double lacks for a number of billionths. -/
def lostBits (n : ℕ) : ℕ := (n / 10 ^ 9).log2 - 20

def tableResidue (n : ℕ) : ℕ :=
  26 * (n / 10 ^ 8 % 10) + 9 * (n / 10 ^ 7 % 10) + 23 * (n / 10 ^ 6 % 10) + 25 * (n / 10 ^ 5 % 10)

theorem lostBits_le {n : ℕ} (h : n ≤ 30000000 * 10 ^ 9) : lostBits n ≤ 4 := by
  have hwhole : n / 10 ^ 9 < 2 ^ 25 := by omega
  rcases Nat.eq_zero_or_pos (n / 10 ^ 9) with hzero | hpos
  · rw [lostBits, hzero]
    decide
  · have hlog := (Nat.log2_lt hpos.ne').mpr hwhole
    rw [lostBits]
    omega

theorem roundToBits_eq_of_div {t w : ℕ} (h : t / 2 ^ 32 = w) :
    roundToBits 53 t = roundShift t (w.log2 - 20) * 2 ^ (w.log2 - 20) := by
  have hlog : w.log2 = t.log2 - 32 := by
    rw [← h, Nat.log2_eq_log_two, Nat.log2_eq_log_two, Nat.log_div_base_pow]
  have hsame : w.log2 - 20 = t.log2 + 1 - 53 := by omega
  rw [hsame, roundToBits]

theorem tableQ32_of_dvd {n : ℕ} (h : 10 ^ 5 ∣ n) :
    (∃ k, tableQ32 n = tableResidue n + 32 * k) ∧ n / 10 ^ 9 * 2 ^ 32 ≤ tableQ32 n ∧
      tableQ32 n + 5 < (n / 10 ^ 9 + 1) * 2 ^ 32 := by
  have hplaces : place 0 = 429496730 ∧ place 1 = 42949673 ∧ place 2 = 4294967 ∧
      place 3 = 429497 := by decide
  obtain ⟨h0, h1, h2, h3⟩ := hplaces
  obtain ⟨g, rfl⟩ := h
  have hmod : 10 ^ 5 * g % 10 ^ 9 = g % 10 ^ 4 * 10 ^ 5 := by omega
  have hsum : placeSum 9 (10 ^ 5 * g % 10 ^ 9) = 429496730 * (g / 1000 % 10) +
      42949673 * (g / 100 % 10) + 4294967 * (g / 10 % 10) + 429497 * (g % 10) := by
    rw [hmod, placeSum_mul_pow 4 5]
    simp only [placeSum, h0, h1, h2, h3]
    omega
  have hd0 : 10 ^ 5 * g / 10 ^ 8 = g / 1000 := by omega
  have hd1 : 10 ^ 5 * g / 10 ^ 7 = g / 100 := by omega
  have hd2 : 10 ^ 5 * g / 10 ^ 6 = g / 10 := by omega
  have hd3 : 10 ^ 5 * g / 10 ^ 5 = g := by omega
  rw [tableQ32, tableResidue, hsum, hd0, hd1, hd2, hd3]
  generalize 10 ^ 5 * g / 10 ^ 9 = w
  have b0 := Nat.mod_lt (g / 1000) (by decide : 0 < 10)
  have b1 := Nat.mod_lt (g / 100) (by decide : 0 < 10)
  have b2 := Nat.mod_lt (g / 10) (by decide : 0 < 10)
  have b3 := Nat.mod_lt g (by decide : 0 < 10)
  generalize g / 1000 % 10 = d0, g / 100 % 10 = d1, g / 10 % 10 = d2, g % 10 = d3 at *
  refine ⟨⟨2 ^ 27 * w + 13421772 * d0 + 1342177 * d1 + 134217 * d2 + 13421 * d3, ?_⟩, ?_, ?_⟩
  · ring
  · omega
  · omega

theorem roundToBits_lt_iff {n u v : ℕ} (hdvd : 10 ^ 5 ∣ n) (hn : n ≤ 30000000 * 10 ^ 9)
    (hu : u ≤ 5) (hv : v ≤ 5) :
    roundToBits 53 (tableQ32 n + u) < roundToBits 53 (tableQ32 n + v) ↔
      roundShift (tableResidue n + u) (lostBits n) < roundShift (tableResidue n + v) (lostBits n) := by
  -- Beside a round number only its residue and the distance from it matter.
  obtain ⟨⟨k, hk⟩, hlow, hhigh⟩ := tableQ32_of_dvd hdvd
  have hlost := lostBits_le hn
  have hround : ∀ d ≤ 5, roundToBits 53 (tableQ32 n + d) =
      (roundShift (tableResidue n + d) (lostBits n) + 2 * (2 ^ (4 - lostBits n) * k)) *
        2 ^ lostBits n := by
    intro d hd
    have hdiv : (tableQ32 n + d) / 2 ^ 32 = n / 10 ^ 9 := by
      apply Nat.div_eq_of_lt_le
      · exact hlow.trans (Nat.le_add_right _ _)
      · exact (Nat.add_le_add_left hd _).trans_lt hhigh
    have hunits : tableQ32 n + d =
        tableResidue n + d + 2 ^ (lostBits n + 1) * (2 ^ (4 - lostBits n) * k) := by
      rw [← Nat.mul_assoc, ← pow_add, hk, show lostBits n + 1 + (4 - lostBits n) = 5 by omega]
      ring
    rw [roundToBits_eq_of_div hdiv, ← lostBits, hunits, roundShift_add_mul]
  rw [hround u hu, hround v hv, Nat.mul_lt_mul_right (Nat.two_pow_pos _), Nat.add_lt_add_iff_right]

/-- Two numbers of billionths of which the smaller one is read as the larger double. -/
def Misordered (m n : ℕ) : Prop :=
  (n = m + 1 ∧ 10 ^ 5 ∣ n ∧
    roundShift (tableResidue n) (lostBits n) <
      roundShift (tableResidue n + tableDrop n) (lostBits n)) ∨
  (n = m + 2 ∧ 10 ^ 9 ∣ n ∧ lostBits n = 0) ∨
  (n = m + 2 ∧ 10 ^ 9 ∣ m + 1 ∧ (lostBits n = 0 ∨ lostBits n = 3))

instance (m n : ℕ) : Decidable (Misordered m n) := inferInstanceAs (Decidable (_ ∨ _ ∨ _))

theorem tableResidue_of_dvd {n : ℕ} (h : 10 ^ 9 ∣ n) : tableResidue n = 0 := by
  obtain ⟨w, rfl⟩ := h
  have hd0 : 10 ^ 9 * w / 10 ^ 8 % 10 = 0 := by omega
  have hd1 : 10 ^ 9 * w / 10 ^ 7 % 10 = 0 := by omega
  have hd2 : 10 ^ 9 * w / 10 ^ 6 % 10 = 0 := by omega
  have hd3 : 10 ^ 9 * w / 10 ^ 5 % 10 = 0 := by omega
  rw [tableResidue, hd0, hd1, hd2, hd3]

theorem roundToBits_succ_lt_iff (m : ℕ) (hn : m + 1 ≤ 30000000 * 10 ^ 9) :
    roundToBits 53 (tableQ32 (m + 1)) < roundToBits 53 (tableQ32 m) ↔ Misordered m (m + 1) := by
  obtain ⟨hround, hother, _⟩ := tableQ32_succ m
  by_cases h5 : 10 ^ 5 ∣ m + 1
  · have hiff := roundToBits_lt_iff h5 hn (Nat.zero_le 5) (tableDrop_le (m + 1))
    rw [Nat.add_zero, Nat.add_zero, ← hround h5] at hiff
    rw [hiff]
    constructor
    · exact fun hlt => .inl ⟨rfl, h5, hlt⟩
    · rintro (⟨_, _, hlt⟩ | ⟨hgap, _⟩ | ⟨hgap, _⟩)
      · exact hlt
      · omega
      · omega
  · have hle : tableQ32 m ≤ tableQ32 (m + 1) := (Nat.le_add_right _ 2).trans (hother h5)
    constructor
    · exact fun hlt => absurd hlt (Nat.not_lt.mpr (roundToBits_mono (by decide) hle))
    · rintro (⟨_, hdvd, _⟩ | ⟨hgap, _⟩ | ⟨hgap, _⟩)
      · exact absurd hdvd h5
      · omega
      · omega

theorem roundToBits_add_two_lt_iff (m : ℕ) (hn : m + 2 ≤ 30000000 * 10 ^ 9) :
    roundToBits 53 (tableQ32 (m + 2)) < roundToBits 53 (tableQ32 m) ↔ Misordered m (m + 2) := by
  obtain ⟨hlast, hfirst, hneither⟩ := tableQ32_add_two m
  have hfive : ∀ k, 10 ^ 9 ∣ k → 10 ^ 5 ∣ k := fun k => Nat.dvd_trans (by decide)
  have hone : ∀ s ≤ 4, roundShift 0 s < roundShift 1 s ↔ s = 0 := by decide
  have hfour : ∀ s ≤ 4, roundShift 4 s < roundShift 5 s ↔ s = 0 ∨ s = 3 := by decide
  have hsmall : ∀ k, ¬10 ^ 9 ∣ k → tableDrop k ≤ 4 := by
    intro k hk
    rw [tableDrop, if_neg hk]
    split_ifs <;> decide
  have hstay : ¬10 ^ 9 ∣ m + 2 → ¬10 ^ 9 ∣ m + 1 → tableQ32 m ≤ tableQ32 (m + 2) := by
    intro h2 h1
    by_cases h5 : 10 ^ 5 ∣ m + 2
    · have hdrop := hsmall _ h2
      have heq := hlast h5
      omega
    · by_cases h5' : 10 ^ 5 ∣ m + 1
      · have hdrop := hsmall _ h1
        obtain ⟨heq, heq'⟩ := hfirst h5'
        omega
      · exact hneither h5 h5'
  by_cases h2 : 10 ^ 9 ∣ m + 2
  · -- down to the whole number and one up again
    have hdrop : tableDrop (m + 2) = 5 := if_pos h2
    have heq : tableQ32 m = tableQ32 (m + 2) + 1 := by
      have hstep := hlast (hfive _ h2)
      omega
    have hiff := roundToBits_lt_iff (hfive _ h2) hn (Nat.zero_le 5) (by decide : 1 ≤ 5)
    rw [Nat.add_zero, Nat.add_zero, ← heq, tableResidue_of_dvd h2,
      hone _ (lostBits_le hn)] at hiff
    rw [hiff]
    constructor
    · exact fun hlost => .inr (.inl ⟨rfl, h2, hlost⟩)
    · rintro (⟨hgap, _⟩ | ⟨_, _, hlost⟩ | ⟨_, h1, _⟩)
      · omega
      · exact hlost
      · omega
  by_cases h1 : 10 ^ 9 ∣ m + 1
  · have hdrop : tableDrop (m + 1) = 5 := if_pos h1
    obtain ⟨hbefore, hafter⟩ := hfirst (hfive _ h1)
    rw [hdrop] at hbefore
    have hiff := roundToBits_lt_iff (hfive _ h1) (by omega) (by decide : 4 ≤ 5) (Nat.le_refl 5)
    have hsame : lostBits (m + 1) = lostBits (m + 2) := by
      rw [lostBits, lostBits, show (m + 2) / 10 ^ 9 = (m + 1) / 10 ^ 9 by omega]
    rw [← hbefore, ← hafter, tableResidue_of_dvd h1, hsame, Nat.zero_add, Nat.zero_add,
      hfour _ (lostBits_le hn)] at hiff
    rw [hiff]
    constructor
    · exact fun hlost => .inr (.inr ⟨rfl, h1, hlost⟩)
    · rintro (⟨hgap, _⟩ | ⟨_, hdvd, _⟩ | ⟨_, _, hlost⟩)
      · omega
      · exact absurd hdvd h2
      · exact hlost
  · constructor
    · exact fun hlt => absurd hlt (Nat.not_lt.mpr (roundToBits_mono (by decide) (hstay h2 h1)))
    · rintro (⟨hgap, _⟩ | ⟨_, hdvd, _⟩ | ⟨_, hdvd, _⟩)
      · omega
      · exact absurd hdvd h2
      · exact absurd hdvd h1

theorem roundToBits_tableQ32_lt_iff {m n : ℕ} (hle : m ≤ n) (hn : n ≤ 30000000 * 10 ^ 9) :
    roundToBits 53 (tableQ32 n) < roundToBits 53 (tableQ32 m) ↔ Misordered m n := by
  obtain ⟨gap, rfl⟩ := Nat.exists_eq_add_of_le hle
  match gap with
  | 0 =>
    constructor
    · exact fun hlt => absurd hlt (Nat.lt_irrefl _)
    · rintro (⟨hgap, _⟩ | ⟨hgap, _⟩ | ⟨hgap, _⟩) <;> omega
  | 1 => exact roundToBits_succ_lt_iff m hn
  | 2 => exact roundToBits_add_two_lt_iff m hn
  | gap + 3 =>
    have hmono := roundToBits_mono (by decide : 0 < 53)
      (tableQ32_le_of_three (by omega : m + 3 ≤ m + (gap + 3)))
    constructor
    · exact fun hlt => absurd hlt (Nat.not_lt.mpr hmono)
    · rintro (⟨hgap, _⟩ | ⟨hgap, _⟩ | ⟨hgap, _⟩) <;> omega

/-! The doubles of two tokens. -/

theorem billionths_mono {wholeA fracA wholeB fracB : List UInt8} (hfracA : IsDigits fracA)
    (hfracB : IsDigits fracB) (h : decimalAbs wholeA fracA ≤ decimalAbs wholeB fracB) :
    billionths wholeA fracA ≤ billionths wholeB fracB := by
  have hlow := (billionths_le wholeA hfracA).1
  have hhigh := (billionths_le wholeB hfracB).2
  have hcast : (billionths wholeA fracA : ℚ) < ((billionths wholeB fracB + 1 : ℕ) : ℚ) := by
    push_cast
    linarith
  exact Nat.lt_succ_iff.mp (by exact_mod_cast hcast)

theorem decimalAbs_nonneg (whole frac : List UInt8) : 0 ≤ decimalAbs whole frac := by
  rw [decimalAbs]
  positivity

theorem decimalAbs_eq_zero {whole frac : List UInt8} (hfrac : IsDigits frac)
    (h : decimalAbs whole frac = 0) : tableQ32 (billionths whole frac) = 0 := by
  have hlow := (billionths_le whole hfrac).1
  rw [h, zero_mul] at hlow
  have hzero : billionths whole frac = 0 := by exact_mod_cast le_antisymm hlow (Nat.cast_nonneg _)
  rw [hzero]
  rfl

theorem roundToBits_div_le_iff (p q : ℕ) :
    (roundToBits 53 p : ℚ) / 2 ^ 32 ≤ roundToBits 53 q / 2 ^ 32 ↔
      ¬roundToBits 53 q < roundToBits 53 p := by
  rw [div_le_div_iff_of_pos_right (by norm_num), Nat.cast_le, Nat.not_lt]

/-- Two accepted coordinates keep their order unless their absolute values are misordered. -/
theorem mcParseDecimal_le_iff {tokenA wholeA fracA tokenB wholeB fracB : List UInt8}
    {negativeA negativeB : Bool} {bitsA bitsB : Float64Bits}
    (ha : IsDecimal tokenA negativeA wholeA fracA) (hb : IsDecimal tokenB negativeB wholeB fracB)
    (hparseA : mcParseDecimal tokenA = some (bitsA, false))
    (hparseB : mcParseDecimal tokenB = some (bitsB, false))
    (hle : decimalValue negativeA wholeA fracA ≤ decimalValue negativeB wholeB fracB) :
    BinaryFormat.binary64.value bitsA.toNat ≤ BinaryFormat.binary64.value bitsB.toNat ↔
      ¬(negativeA = false ∧ negativeB = false ∧
        Misordered (billionths wholeA fracA) (billionths wholeB fracB)) ∧
      ¬(negativeA = true ∧ negativeB = true ∧
        Misordered (billionths wholeB fracB) (billionths wholeA fracA)) := by
  have hfracA := ha.isDigits_frac
  have hfracB := hb.isDigits_frac
  obtain ⟨hlimitA, hnearA⟩ := ha.isNearestDouble hparseA
  obtain ⟨hlimitB, hnearB⟩ := hb.isNearestDouble hparseB
  have hnonnegA := decimalAbs_nonneg wholeA fracA
  have hnonnegB := decimalAbs_nonneg wholeB fracB
  rw [hnearA.value_eq, hnearB.value_eq]
  cases negativeA with
  | false =>
    cases negativeB with
    | false =>
      have habs : decimalAbs wholeA fracA ≤ decimalAbs wholeB fracB := hle
      have hiff := roundToBits_tableQ32_lt_iff (billionths_mono hfracA hfracB habs)
        (billionths_le_limit hfracB hlimitB)
      simpa [hiff] using roundToBits_div_le_iff (tableQ32 (billionths wholeA fracA))
        (tableQ32 (billionths wholeB fracB))
    | true =>
      -- both are zero
      have hzero : decimalAbs wholeA fracA ≤ -decimalAbs wholeB fracB := hle
      have hzeroA := decimalAbs_eq_zero hfracA (by linarith)
      have hzeroB := decimalAbs_eq_zero hfracB (by linarith)
      rw [hzeroA, hzeroB, roundToBits_of_lt (by decide)]
      simp
  | true =>
    cases negativeB with
    | false =>
      have hbelow : -((roundToBits 53 (tableQ32 (billionths wholeA fracA)) : ℚ) / 2 ^ 32) ≤
          roundToBits 53 (tableQ32 (billionths wholeB fracB)) / 2 ^ 32 :=
        (neg_nonpos.mpr (by positivity)).trans (by positivity)
      simpa using hbelow
    | true =>
      have habs : decimalAbs wholeB fracB ≤ decimalAbs wholeA fracA := neg_le_neg_iff.mp hle
      have hiff := roundToBits_tableQ32_lt_iff (billionths_mono hfracB hfracA habs)
        (billionths_le_limit hfracA hlimitA)
      simpa [hiff] using roundToBits_div_le_iff (tableQ32 (billionths wholeB fracB))
        (tableQ32 (billionths wholeA fracA))

theorem isDecimal_nine_nines :
    IsDecimal (cText "0.999999999") false (cText "0") (cText "999999999") :=
  .unsigned ⟨by decide, by decide +kernel, 0x2e :: cText "999999999", by decide,
    .point (by decide) (by decide +kernel)⟩

theorem isDecimal_one : IsDecimal (cText "1") false (cText "1") [] :=
  .unsigned ⟨by decide, by decide +kernel, [], by decide, .absent⟩

theorem decimalValue_nine_nines_le_one :
    decimalValue false (cText "0") (cText "999999999") ≤ decimalValue false (cText "1") [] := by
  have hzero : digitsValue (cText "0") = 0 := by decide
  have hone : digitsValue (cText "1") = 1 := by decide
  have hnines : digitsValue (cText "999999999") = 999999999 := by decide
  have hlength : (cText "999999999").length = 9 := by decide
  have hnone : digitsValue [] = 0 := rfl
  simp only [decimalValue, decimalAbs, hzero, hone, hnines, hlength, hnone]
  norm_num

/-- The nine nines below one and one itself. -/
theorem mcParseDecimal_le_iff_nine_nines :
    BinaryFormat.binary64.value (0x3ff0000000500000 : Float64Bits).toNat ≤
        BinaryFormat.binary64.value (0x3ff0000000000000 : Float64Bits).toNat ↔
      ¬(false = false ∧ false = false ∧
        Misordered (billionths (cText "0") (cText "999999999")) (billionths (cText "1") [])) ∧
      ¬(false = true ∧ false = true ∧
        Misordered (billionths (cText "1") []) (billionths (cText "0") (cText "999999999"))) :=
  mcParseDecimal_le_iff isDecimal_nine_nines isDecimal_one (by decide +kernel) (by decide +kernel)
    decimalValue_nine_nines_le_one

/-- Nine nines are read as more than one. -/
theorem mcParseDecimal_nine_nines_gt_one :
    ¬∀ (tokenA wholeA fracA tokenB wholeB fracB : List UInt8) (negativeA negativeB : Bool)
      (bitsA bitsB : Float64Bits), IsDecimal tokenA negativeA wholeA fracA →
      IsDecimal tokenB negativeB wholeB fracB → mcParseDecimal tokenA = some (bitsA, false) →
      mcParseDecimal tokenB = some (bitsB, false) →
      decimalValue negativeA wholeA fracA ≤ decimalValue negativeB wholeB fracB →
      BinaryFormat.binary64.value bitsA.toNat ≤ BinaryFormat.binary64.value bitsB.toNat := by
  intro h
  have hnines : mcParseDecimal (cText "0.999999999") = some (0x3ff0000000500000, false) := by
    decide +kernel
  have hone : mcParseDecimal (cText "1") = some (0x3ff0000000000000, false) := by decide +kernel
  have hle := h _ _ _ _ _ _ _ _ _ _ isDecimal_nine_nines isDecimal_one hnines hone
    decimalValue_nine_nines_le_one
  rw [(isDecimal_nine_nines.isNearestDouble hnines).2.value_eq,
    (isDecimal_one.isNearestDouble hone).2.value_eq] at hle
  have hgt : roundToBits 53 (tableQ32 (billionths (cText "1") [])) <
      roundToBits 53 (tableQ32 (billionths (cText "0") (cText "999999999"))) := by decide +kernel
  exact (roundToBits_div_le_iff _ _).mp hle hgt

end StarrySky.Core
