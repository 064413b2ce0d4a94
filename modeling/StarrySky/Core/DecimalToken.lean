import StarrySky.Base.Overflow
import StarrySky.Core.Commands

/-! The number tokens of a command: their grammar, their exact value, and what the digit loops of
`mc_parse_decimal` and `mc_parse_time_ticks` find in them. -/

namespace StarrySky.Core
open StarrySky.Base

def digitValue (ch : UInt8) : ℕ := (ch - 0x30).toNat

/-- Digits read behind a number. -/
def digitsFrom (value : ℕ) (digits : List UInt8) : ℕ :=
  digits.foldl (fun value ch => 10 * value + digitValue ch) value

def digitsValue (digits : List UInt8) : ℕ := digitsFrom 0 digits

def IsDigits (text : List UInt8) : Prop := ∀ ch ∈ text, isDigit ch = true

instance (text : List UInt8) : Decidable (IsDigits text) := inferInstanceAs (Decidable (∀ _ ∈ _, _))

theorem digitValue_lt {ch : UInt8} (h : isDigit ch = true) : digitValue ch < 10 := by
  rw [isDigit, decide_eq_true_iff, UInt8.le_iff_toNat_le, UInt8.le_iff_toNat_le] at h
  rw [digitValue, UInt8.toNat_sub_of_le _ _ (UInt8.le_iff_toNat_le.mpr h.1)]
  have hlow : (0x30 : UInt8).toNat = 48 := rfl
  have hhigh : (0x39 : UInt8).toNat = 57 := rfl
  omega

theorem digitValue_eq_zero {ch : UInt8} : digitValue ch = 0 ↔ ch = 0x30 := by
  rw [digitValue]
  constructor
  · intro h
    have hsub : ch - 0x30 = 0 := UInt8.toNat_inj.mp h
    simpa [sub_eq_zero] using hsub
  · rintro rfl
    rfl

theorem IsDigits.tail {ch : UInt8} {text : List UInt8} (h : IsDigits (ch :: text)) :
    IsDigits text := fun c hc => h c (List.mem_cons_of_mem _ hc)

theorem IsDigits.head {ch : UInt8} {text : List UInt8} (h : IsDigits (ch :: text)) :
    isDigit ch = true := h ch (List.mem_cons_self ..)

theorem digitsFrom_append (value : ℕ) (xs ys : List UInt8) :
    digitsFrom value (xs ++ ys) = digitsFrom (digitsFrom value xs) ys := List.foldl_append

theorem digitsFrom_eq (value : ℕ) (digits : List UInt8) :
    digitsFrom value digits = value * 10 ^ digits.length + digitsValue digits := by
  induction digits generalizing value with
  | nil => simp [digitsFrom, digitsValue]
  | cons ch digits ih =>
    rw [digitsValue]
    show digitsFrom (10 * value + digitValue ch) digits =
      value * 10 ^ (ch :: digits).length + digitsFrom (10 * 0 + digitValue ch) digits
    rw [ih, ih (10 * 0 + digitValue ch), List.length_cons]
    ring

theorem digitsValue_lt {digits : List UInt8} (h : IsDigits digits) :
    digitsValue digits < 10 ^ digits.length := by
  induction digits with
  | nil => decide
  | cons ch digits ih =>
    have hhead := digitValue_lt h.head
    have htail := ih h.tail
    have hvalue : digitsValue (ch :: digits) =
        digitValue ch * 10 ^ digits.length + digitsValue digits := by
      rw [← digitsFrom_eq, digitsValue]
      show digitsFrom (10 * 0 + digitValue ch) digits = _
      rw [Nat.mul_zero, Nat.zero_add]
    rw [hvalue, List.length_cons, pow_succ]
    nlinarith

theorem digitsValue_eq_zero_iff (digits : List UInt8) :
    digitsValue digits = 0 ↔ ∀ ch ∈ digits, ch = 0x30 := by
  induction digits with
  | nil => simp [digitsValue, digitsFrom]
  | cons ch digits ih =>
    have hvalue : digitsValue (ch :: digits) =
        (10 * 0 + digitValue ch) * 10 ^ digits.length + digitsValue digits := by
      rw [← digitsFrom_eq]
      rfl
    have hpos : (10 : ℕ) ^ digits.length ≠ 0 := by positivity
    rw [hvalue, Nat.mul_zero, Nat.zero_add, Nat.add_eq_zero_iff, Nat.mul_eq_zero,
      or_iff_left hpos, digitValue_eq_zero, ih, List.forall_mem_cons]

/-! The loops. -/

theorem wholeLoop_cons {ch : UInt8} (h : isDigit ch = true) (rangeError : Bool) (whole : UInt32)
    (intDigits : ℕ) (rest : List UInt8) :
    wholeLoop rangeError whole intDigits (ch :: rest) =
      if whole > (mcCommandCoordLimitWhole - (ch - 0x30).toUInt32) / 10 then
        wholeLoop true whole (intDigits + 1) rest
      else if !rangeError then
        wholeLoop rangeError (whole * 10 + (ch - 0x30).toUInt32) (intDigits + 1) rest
      else wholeLoop rangeError whole (intDigits + 1) rest := by
  rw [wholeLoop, if_pos h]

structure WholeRead (value : ℕ) (rangeError : Bool) (whole : UInt32) : Prop where
  rangeError_iff : rangeError = true ↔ 30000000 < value
  toNat_whole : value ≤ 30000000 → whole.toNat = value
  whole_le : whole.toNat ≤ 30000000

theorem toNat_toUInt32_sub (ch : UInt8) : (ch - 0x30).toUInt32.toNat = digitValue ch :=
  UInt8.toNat_toUInt32 _

theorem whole_gt_iff {ch : UInt8} (h : isDigit ch = true) (whole : UInt32) :
    whole > (mcCommandCoordLimitWhole - (ch - 0x30).toUInt32) / 10 ↔
      30000000 < 10 * whole.toNat + digitValue ch := by
  -- The test of the loop asks exactly whether one more digit exceeds the limit.
  have hdigit := digitValue_lt h
  have hlimit : mcCommandCoordLimitWhole.toNat = 30000000 := rfl
  have hle : (ch - 0x30).toUInt32 ≤ mcCommandCoordLimitWhole := by
    rw [UInt32.le_iff_toNat_le, toNat_toUInt32_sub, hlimit]
    omega
  have hten : (10 : UInt32).toNat = 10 := rfl
  rw [gt_iff_lt, UInt32.lt_iff_toNat_lt, UInt32.toNat_div, UInt32.toNat_sub_of_le _ _ hle,
    toNat_toUInt32_sub, hlimit, hten]
  omega

theorem toNat_accumulate {ch : UInt8} {whole : UInt32}
    (h : 10 * whole.toNat + digitValue ch < 2 ^ 32) :
    (whole * 10 + (ch - 0x30).toUInt32).toNat = 10 * whole.toNat + digitValue ch := by
  have hten : (10 : UInt32).toNat = 10 := rfl
  rw [UInt32.toNat_add, UInt32.toNat_mul, toNat_toUInt32_sub, hten]
  omega

theorem WholeRead.step {value : ℕ} {rangeError : Bool} {whole : UInt32}
    (h : WholeRead value rangeError whole) {ch : UInt8} (hch : isDigit ch = true)
    (intDigits : ℕ) (rest : List UInt8) :
    ∃ rangeError' whole', WholeRead (10 * value + digitValue ch) rangeError' whole' ∧
      wholeLoop rangeError whole intDigits (ch :: rest) =
        wholeLoop rangeError' whole' (intDigits + 1) rest := by
  have hdigit := digitValue_lt hch
  have hwhole := h.whole_le
  rw [wholeLoop_cons hch]
  by_cases hgt : whole > (mcCommandCoordLimitWhole - (ch - 0x30).toUInt32) / 10
  · refine ⟨true, whole, ⟨?_, ?_, hwhole⟩, if_pos hgt⟩
    · have hover := (whole_gt_iff hch whole).mp hgt
      have hvalue := h.toNat_whole
      simp only [true_iff]
      omega
    · intro hle
      have hover := (whole_gt_iff hch whole).mp hgt
      have hvalue := h.toNat_whole
      omega
  have hfits := (whole_gt_iff hch whole).not.mp hgt
  rw [if_neg hgt]
  cases rangeError with
  | true =>
    have hover := h.rangeError_iff.mp rfl
    refine ⟨true, whole, ⟨?_, ?_, hwhole⟩, rfl⟩
    · simp only [true_iff]
      omega
    · intro hle
      omega
  | false =>
    have hvalue : ¬30000000 < value := fun hlt => absurd (h.rangeError_iff.mpr hlt) (by decide)
    have hexact := h.toNat_whole (Nat.le_of_not_lt hvalue)
    have hnext := @toNat_accumulate ch whole (by omega)
    refine ⟨false, _, ⟨?_, ?_, by omega⟩, rfl⟩
    · simp only [Bool.false_eq_true, false_iff]
      omega
    · intro hle
      omega

/-- A text that does not go on with a digit. -/
def EndsDigits (rest : List UInt8) : Prop := ∀ ch ∈ rest.head?, isDigit ch = false

theorem wholeLoop_of_endsDigits {rest : List UInt8} (h : EndsDigits rest) (rangeError : Bool)
    (whole : UInt32) (intDigits : ℕ) :
    wholeLoop rangeError whole intDigits rest = { rangeError, whole, intDigits, rest } := by
  cases rest with
  | nil => rfl
  | cons ch rest => rw [wholeLoop, if_neg (by simp [h ch rfl])]

theorem wholeLoop_spec {digits rest : List UInt8} (hdigits : IsDigits digits)
    (hrest : EndsDigits rest) {value : ℕ} {rangeError : Bool} {whole : UInt32}
    (h : WholeRead value rangeError whole) (intDigits : ℕ) :
    ∃ rangeError' whole', WholeRead (digitsFrom value digits) rangeError' whole' ∧
      wholeLoop rangeError whole intDigits (digits ++ rest) =
        { rangeError := rangeError', whole := whole', intDigits := intDigits + digits.length,
          rest } := by
  induction digits generalizing value rangeError whole intDigits with
  | nil => exact ⟨rangeError, whole, h, wholeLoop_of_endsDigits hrest _ _ _⟩
  | cons ch digits ih =>
    obtain ⟨rangeError', whole', hread, hloop⟩ := h.step hdigits.head intDigits (digits ++ rest)
    obtain ⟨rangeError'', whole'', hlast, hrun⟩ := ih hdigits.tail hread (intDigits + 1)
    refine ⟨rangeError'', whole'', hlast, ?_⟩
    rw [List.cons_append, hloop, hrun, List.length_cons, Nat.add_assoc, Nat.add_comm 1]

theorem wholeRead_zero : WholeRead 0 false 0 :=
  ⟨by simp, fun _ => rfl, by decide⟩

/-- What `fracLoop` has found after `digits`: the first nine of them count. -/
structure FracRead (digits : List UInt8) (frac scale : UInt32) (discarded : Bool) : Prop where
  toNat_frac : frac.toNat = digitsValue (digits.take 9)
  toNat_scale : scale.toNat = 10 ^ (digits.take 9).length
  discarded_iff : discarded = true ↔ ∃ ch ∈ digits.drop 9, ch ≠ 0x30

theorem digitsValue_concat (digits : List UInt8) (ch : UInt8) :
    digitsValue (digits ++ [ch]) = 10 * digitsValue digits + digitValue ch := by
  rw [digitsValue, digitsFrom_append]
  rfl

theorem FracRead.step {digits : List UInt8} {frac scale : UInt32} {discarded : Bool}
    (h : FracRead digits frac scale discarded) (hdigits : IsDigits digits) {ch : UInt8}
    (hch : isDigit ch = true) (rest : List UInt8) :
    ∃ frac' scale' discarded', FracRead (digits ++ [ch]) frac' scale' discarded' ∧
      fracLoop false frac scale digits.length discarded (ch :: rest) =
        fracLoop false frac' scale' (digits ++ [ch]).length discarded' rest := by
  have hdigit := digitValue_lt hch
  rw [fracLoop, if_pos hch, List.length_append, List.length_singleton]
  by_cases hroom : digits.length < 9
  · have htake : digits.take 9 = digits := List.take_of_length_le hroom.le
    have hfrac := h.toNat_frac
    have hscale := h.toNat_scale
    rw [htake] at hfrac hscale
    have hpow : 10 ^ digits.length ≤ 10 ^ 8 := Nat.pow_le_pow_right (by decide) (by omega)
    have hvalue := digitsValue_lt hdigits
    have hlength : (digits ++ [ch]).length ≤ 9 := by
      rw [List.length_append, List.length_singleton]
      omega
    refine ⟨frac * 10 + (ch - 0x30).toUInt32, scale * 10, discarded, ⟨?_, ?_, ?_⟩,
      if_pos ⟨rfl, hroom⟩⟩
    · rw [toNat_accumulate (by omega), List.take_of_length_le hlength, digitsValue_concat, hfrac]
    · have hten : (10 : UInt32).toNat = 10 := rfl
      rw [List.take_of_length_le hlength, List.length_append, List.length_singleton, pow_succ,
        UInt32.toNat_mul, hscale, hten]
      omega
    · rw [h.discarded_iff, List.drop_eq_nil_of_le hlength, List.drop_eq_nil_of_le hroom.le]
  · have hfull : 9 ≤ digits.length := Nat.le_of_not_lt hroom
    have htake : (digits ++ [ch]).take 9 = digits.take 9 := List.take_append_of_le_length hfull
    have hdrop : (digits ++ [ch]).drop 9 = digits.drop 9 ++ [ch] := List.drop_append_of_le_length hfull
    refine ⟨frac, scale, discarded || ch ≠ 0x30, ⟨?_, ?_, ?_⟩, if_neg fun hlt => hroom hlt.2⟩
    · rw [htake]
      exact h.toNat_frac
    · rw [htake]
      exact h.toNat_scale
    · rw [hdrop, Bool.or_eq_true, h.discarded_iff, decide_eq_true_iff]
      constructor
      · rintro (⟨c, hc, hne⟩ | hne)
        · exact ⟨c, List.mem_append_left _ hc, hne⟩
        · exact ⟨ch, List.mem_append_right _ (List.mem_singleton_self ch), hne⟩
      · rintro ⟨c, hc, hne⟩
        rcases List.mem_append.mp hc with hc | hc
        · exact .inl ⟨c, hc, hne⟩
        · exact .inr (List.mem_singleton.mp hc ▸ hne)

theorem fracLoop_of_endsDigits {rest : List UInt8} (h : EndsDigits rest) (rangeError : Bool)
    (frac scale : UInt32) (fracDigits : ℕ) (discarded : Bool) :
    fracLoop rangeError frac scale fracDigits discarded rest =
      { frac, scale, fracDigits, discardedNonzeroFrac := discarded, rest } := by
  cases rest with
  | nil => rfl
  | cons ch rest => rw [fracLoop, if_neg (by simp [h ch rfl])]

theorem fracLoop_spec (digits : List UInt8) {done rest : List UInt8} (hdigits : IsDigits digits)
    (hdone : IsDigits done) (hrest : EndsDigits rest) {frac scale : UInt32} {discarded : Bool}
    (h : FracRead done frac scale discarded) :
    ∃ frac' scale' discarded', FracRead (done ++ digits) frac' scale' discarded' ∧
      fracLoop false frac scale done.length discarded (digits ++ rest) =
        { frac := frac', scale := scale', fracDigits := (done ++ digits).length,
          discardedNonzeroFrac := discarded', rest } := by
  induction digits generalizing done frac scale discarded with
  | nil =>
    refine ⟨frac, scale, discarded, by rwa [List.append_nil], ?_⟩
    rw [List.nil_append, List.append_nil]
    exact fracLoop_of_endsDigits hrest _ _ _ _ _
  | cons ch digits ih =>
    obtain ⟨frac', scale', discarded', hread, hloop⟩ :=
      h.step hdone hdigits.head (digits ++ rest)
    have hsnoc : IsDigits (done ++ [ch]) := by
      intro c hc
      rcases List.mem_append.mp hc with hc | hc
      · exact hdone c hc
      · exact List.mem_singleton.mp hc ▸ hdigits.head
    obtain ⟨frac'', scale'', discarded'', hlast, hrun⟩ := ih hdigits.tail hsnoc hread
    rw [List.append_assoc, List.singleton_append] at hlast hrun
    exact ⟨frac'', scale'', discarded'', hlast, by rw [List.cons_append, hloop, hrun]⟩

theorem fracLoop_rangeError {digits rest : List UInt8} (hdigits : IsDigits digits)
    (hrest : EndsDigits rest) (frac scale : UInt32) (fracDigits : ℕ) (discarded : Bool) :
    ∃ discarded', fracLoop true frac scale fracDigits discarded (digits ++ rest) =
      { frac, scale, fracDigits := fracDigits + digits.length, discardedNonzeroFrac := discarded',
        rest } := by
  induction digits generalizing fracDigits discarded with
  | nil => exact ⟨discarded, fracLoop_of_endsDigits hrest _ _ _ _ _⟩
  | cons ch digits ih =>
    obtain ⟨discarded', hrun⟩ := ih hdigits.tail (fracDigits + 1) (discarded || ch ≠ 0x30)
    refine ⟨discarded', ?_⟩
    rw [List.cons_append, fracLoop, if_pos hdigits.head, if_neg (by simp), hrun, List.length_cons,
      Nat.add_assoc, Nat.add_comm 1]

/-! The grammar: an optional sign, digits, and optionally a point with more digits. -/

/-- What may follow the digits before the point. -/
inductive IsFraction : List UInt8 → List UInt8 → Prop
  | absent : IsFraction [] []
  | point {frac : List UInt8} (hne : frac ≠ []) (hfrac : IsDigits frac) :
      IsFraction (0x2e :: frac) frac

structure IsUnsigned (text whole frac : List UInt8) : Prop where
  whole_ne_nil : whole ≠ []
  wholeDigits : IsDigits whole
  exists_fraction : ∃ tail, text = whole ++ tail ∧ IsFraction tail frac

/-- `token` is a decimal number with the given sign and digits. -/
inductive IsDecimal : List UInt8 → Bool → List UInt8 → List UInt8 → Prop
  | unsigned {text whole frac : List UInt8} (h : IsUnsigned text whole frac) :
      IsDecimal text false whole frac
  | plus {text whole frac : List UInt8} (h : IsUnsigned text whole frac) :
      IsDecimal (0x2b :: text) false whole frac
  | minus {text whole frac : List UInt8} (h : IsUnsigned text whole frac) :
      IsDecimal (0x2d :: text) true whole frac

def decimalAbs (whole frac : List UInt8) : ℚ :=
  digitsValue whole + digitsValue frac / 10 ^ frac.length

def decimalValue (negative : Bool) (whole frac : List UInt8) : ℚ :=
  if negative then -decimalAbs whole frac else decimalAbs whole frac

theorem IsFraction.isDigits {tail frac : List UInt8} (h : IsFraction tail frac) :
    IsDigits frac := by
  cases h with
  | absent => simp [IsDigits]
  | point _ hfrac => exact hfrac

theorem isDigit_point : isDigit 0x2e = false := by decide

theorem IsFraction.endsDigits {tail frac : List UInt8} (h : IsFraction tail frac) :
    EndsDigits tail := by
  cases h with
  | absent => simp [EndsDigits]
  | point _ _ => simp [EndsDigits, isDigit_point]

/-- The part of `mc_parse_decimal` that reads the point and the digits behind it. -/
def fracScan (rangeError : Bool) (rest : List UInt8) : Option FracDigits :=
  match rest with
  | ch :: rest =>
    if ch = 0x2e then
      let frac := fracLoop rangeError 0 1 0 false rest
      if frac.fracDigits = 0 then none else some frac
    else some ⟨0, 1, 0, false, ch :: rest⟩
  | [] => some ⟨0, 1, 0, false, []⟩

/-- `mc_parse_decimal` behind the sign. -/
def parseUnsigned (negative : Bool) (digits : List UInt8) : Option (Float64Bits × Bool) :=
  let whole := wholeLoop false 0 0 digits
  if whole.intDigits = 0 then none
  else
    match fracScan whole.rangeError whole.rest with
    | none => none
    | some frac =>
      if frac.rest ≠ [] then none
      else
        let rangeError := whole.rangeError || whole.whole > mcCommandCoordLimitWhole ||
          (whole.whole = mcCommandCoordLimitWhole &&
            (frac.frac ≠ 0 || frac.discardedNonzeroFrac))
        if rangeError then some (0, true)
        else some (mcDecimalToDouble negative whole.whole frac.frac frac.scale, false)

theorem mcParseDecimal_cons (ch : UInt8) (rest : List UInt8) :
    mcParseDecimal (ch :: rest) =
      if ch = 0x2d ∨ ch = 0x2b then if rest = [] then none else parseUnsigned (ch = 0x2d) rest
      else parseUnsigned false (ch :: rest) := by
  rw [mcParseDecimal]
  dsimp only
  split_ifs <;> rfl

theorem fracRead_nil : FracRead [] 0 1 false := ⟨rfl, rfl, by simp⟩

theorem fracScan_of_isFraction {tail frac : List UInt8} (h : IsFraction tail frac)
    (rangeError : Bool) :
    ∃ found, fracScan rangeError tail = some found ∧ found.rest = [] ∧
      (rangeError = false → FracRead frac found.frac found.scale found.discardedNonzeroFrac) := by
  cases h with
  | absent => exact ⟨_, rfl, rfl, fun _ => fracRead_nil⟩
  | point hne hfrac =>
    have hnil : EndsDigits [] := by simp [EndsDigits]
    have hlength := List.length_pos_iff.mpr hne
    cases rangeError with
    | true =>
      obtain ⟨discarded, hloop⟩ := fracLoop_rangeError hfrac hnil 0 1 0 false
      rw [List.append_nil, Nat.zero_add] at hloop
      refine ⟨⟨0, 1, frac.length, discarded, []⟩, ?_, rfl, by simp⟩
      rw [fracScan, if_pos rfl, hloop]
      exact if_neg hlength.ne'
    | false =>
      obtain ⟨found, scale, discarded, hread, hloop⟩ :=
        @fracLoop_spec frac [] [] hfrac (by simp [IsDigits]) hnil _ _ _ fracRead_nil
      rw [List.append_nil, List.length_nil, List.nil_append] at hloop
      refine ⟨⟨found, scale, frac.length, discarded, []⟩, ?_, rfl, fun _ => hread⟩
      rw [fracScan, if_pos rfl, hloop]
      exact if_neg hlength.ne'

theorem decimalAbs_gt_iff {whole frac : List UInt8} (hfrac : IsDigits frac) :
    30000000 < decimalAbs whole frac ↔
      30000000 < digitsValue whole ∨ digitsValue whole = 30000000 ∧ digitsValue frac ≠ 0 := by
  have hpow : (0 : ℚ) < 10 ^ frac.length := by positivity
  have hlt : (digitsValue frac : ℚ) < 10 ^ frac.length := by exact_mod_cast digitsValue_lt hfrac
  have hfraction : (digitsValue frac : ℚ) / 10 ^ frac.length < 1 := (div_lt_one hpow).mpr hlt
  have hnonneg : (0 : ℚ) ≤ (digitsValue frac : ℚ) / 10 ^ frac.length := by positivity
  rw [decimalAbs]
  constructor
  · intro hgt
    have hwhole : (29999999 : ℚ) < digitsValue whole := by linarith
    have hge : 29999999 < digitsValue whole := by exact_mod_cast hwhole
    rcases Nat.lt_or_ge 30000000 (digitsValue whole) with hover | hle
    · exact .inl hover
    · have heq : digitsValue whole = 30000000 := by omega
      refine .inr ⟨heq, ?_⟩
      rintro hzero
      rw [heq, hzero] at hgt
      norm_num at hgt
  · rintro (hover | ⟨heq, hne⟩)
    · have hcast : (30000000 : ℚ) < digitsValue whole := by exact_mod_cast hover
      linarith
    · have hpos : (0 : ℚ) < (digitsValue frac : ℚ) / 10 ^ frac.length :=
        div_pos (by exact_mod_cast Nat.pos_of_ne_zero hne) hpow
      rw [heq]
      push_cast
      linarith

theorem FracRead.nonzero_iff {frac : List UInt8} {found scale : UInt32} {discarded : Bool}
    (h : FracRead frac found scale discarded) :
    (found ≠ 0 ∨ discarded = true) ↔ digitsValue frac ≠ 0 := by
  have hfound : found ≠ 0 ↔ ∃ ch ∈ frac.take 9, ch ≠ 0x30 := by
    rw [ne_eq, ← UInt32.toNat_inj, h.toNat_frac, UInt32.toNat_zero, digitsValue_eq_zero_iff]
    simp only [not_forall, exists_prop]
  have hall : digitsValue frac ≠ 0 ↔ ∃ ch ∈ frac.take 9 ++ frac.drop 9, ch ≠ 0x30 := by
    rw [List.take_append_drop, ne_eq, digitsValue_eq_zero_iff]
    simp only [not_forall, exists_prop]
  rw [hfound, h.discarded_iff, hall]
  simp only [List.mem_append, or_and_right, exists_or]

/-- What is assembled for a token within the range: its whole part and nine digits behind the
point. -/
structure Assembles (negative : Bool) (whole frac : List UInt8) (bits : Float64Bits) : Prop where
  exists_eq : ∃ w f scale : UInt32, w.toNat = digitsValue whole ∧
    f.toNat = digitsValue (frac.take 9) ∧ scale.toNat = 10 ^ (frac.take 9).length ∧
    bits = mcDecimalToDouble negative w f scale

theorem parseUnsigned_of_isUnsigned (negative : Bool) {text whole frac : List UInt8}
    (h : IsUnsigned text whole frac) :
    (30000000 < decimalAbs whole frac ∧ parseUnsigned negative text = some (0, true)) ∨
      (decimalAbs whole frac ≤ 30000000 ∧
        ∃ bits, parseUnsigned negative text = some (bits, false) ∧
          Assembles negative whole frac bits) := by
  obtain ⟨tail, rfl, hfraction⟩ := h.exists_fraction
  obtain ⟨rangeError, w, hread, hloop⟩ :=
    wholeLoop_spec h.wholeDigits hfraction.endsDigits wholeRead_zero 0
  obtain ⟨found, hscan, hrest, hfound⟩ := fracScan_of_isFraction hfraction rangeError
  have hlength : 0 + whole.length ≠ 0 := by
    have := List.length_pos_iff.mpr h.whole_ne_nil
    omega
  have hresult : parseUnsigned negative (whole ++ tail) =
      if (rangeError || w > mcCommandCoordLimitWhole ||
        (w = mcCommandCoordLimitWhole && (found.frac ≠ 0 || found.discardedNonzeroFrac))) = true
      then some (0, true)
      else some (mcDecimalToDouble negative w found.frac found.scale, false) := by
    rw [parseUnsigned, hloop]
    dsimp only
    rw [if_neg hlength, hscan]
    dsimp only
    rw [if_neg (not_not.mpr hrest)]
  have hlimit : mcCommandCoordLimitWhole.toNat = 30000000 := rfl
  have hwithin : ¬w > mcCommandCoordLimitWhole := by
    rw [gt_iff_lt, UInt32.lt_iff_toNat_lt, hlimit]
    exact Nat.not_lt.mpr hread.whole_le
  have hgt := @decimalAbs_gt_iff whole _ hfraction.isDigits
  rw [hresult]
  have hvalue : digitsFrom 0 whole = digitsValue whole := rfl
  rw [hvalue] at hread
  cases rangeError with
  | true => exact .inl ⟨hgt.mpr (.inl (hread.rangeError_iff.mp rfl)), rfl⟩
  | false =>
    have hle : digitsValue whole ≤ 30000000 :=
      Nat.le_of_not_lt fun hlt => absurd (hread.rangeError_iff.mpr hlt) (by decide)
    have hw := hread.toNat_whole hle
    have hfrac := hfound rfl
    have hedge : w = mcCommandCoordLimitWhole ↔ digitsValue whole = 30000000 := by
      rw [← UInt32.toNat_inj, hw, hlimit]
    have hflag : (false || w > mcCommandCoordLimitWhole ||
        (w = mcCommandCoordLimitWhole && (found.frac ≠ 0 || found.discardedNonzeroFrac))) = true ↔
        30000000 < decimalAbs whole frac := by
      rw [hgt, ← hfrac.nonzero_iff]
      simp only [hwithin, hedge, Bool.false_or, decide_false, Bool.and_eq_true, decide_eq_true_iff,
        Bool.or_eq_true, Nat.not_lt.mpr hle, false_or]
    by_cases hover : 30000000 < decimalAbs whole frac
    · exact .inl ⟨hover, if_pos (hflag.mpr hover)⟩
    · refine .inr ⟨not_lt.mp hover, _, if_neg (hflag.not.mpr hover), ?_⟩
      exact ⟨w, found.frac, found.scale, hw, hfrac.toNat_frac, hfrac.toNat_scale, rfl⟩

theorem exists_digits (text : List UInt8) :
    ∃ digits rest, text = digits ++ rest ∧ IsDigits digits ∧ EndsDigits rest := by
  induction text with
  | nil => exact ⟨[], [], rfl, by simp [IsDigits], by simp [EndsDigits]⟩
  | cons ch text ih =>
    cases hch : isDigit ch with
    | false => exact ⟨[], ch :: text, rfl, by simp [IsDigits], by simp [EndsDigits, hch]⟩
    | true =>
      obtain ⟨digits, rest, rfl, hdigits, hrest⟩ := ih
      refine ⟨ch :: digits, rest, rfl, ?_, hrest⟩
      intro c hc
      rcases List.mem_cons.mp hc with rfl | hc
      · exact hch
      · exact hdigits c hc

theorem fracLoop_counts {digits rest : List UInt8} (hdigits : IsDigits digits)
    (hrest : EndsDigits rest) (rangeError : Bool) :
    (fracLoop rangeError 0 1 0 false (digits ++ rest)).fracDigits = digits.length ∧
      (fracLoop rangeError 0 1 0 false (digits ++ rest)).rest = rest := by
  cases rangeError with
  | true =>
    obtain ⟨discarded, hloop⟩ := fracLoop_rangeError hdigits hrest 0 1 0 false
    rw [hloop]
    exact ⟨Nat.zero_add _, rfl⟩
  | false =>
    obtain ⟨found, scale, discarded, _, hloop⟩ :=
      @fracLoop_spec digits [] rest hdigits (by simp [IsDigits]) hrest _ _ _ fracRead_nil
    rw [List.length_nil] at hloop
    rw [hloop]
    exact ⟨rfl, rfl⟩

theorem exists_isFraction {tail : List UInt8} {rangeError : Bool} {found : FracDigits}
    (h : fracScan rangeError tail = some found) (hrest : found.rest = []) :
    ∃ frac, IsFraction tail frac := by
  cases tail with
  | nil => exact ⟨[], .absent⟩
  | cons ch tail =>
    rw [fracScan] at h
    split_ifs at h with hpoint
    · obtain ⟨digits, rest, rfl, hdigits, hends⟩ := exists_digits tail
      obtain ⟨hlength, hafter⟩ := fracLoop_counts hdigits hends rangeError
      dsimp only at h
      split_ifs at h with hcount
      cases h
      rw [hafter] at hrest
      rw [hlength] at hcount
      rw [hpoint, hrest, List.append_nil]
      exact ⟨digits, .point (fun hnil => hcount (List.length_eq_zero_iff.mpr hnil)) hdigits⟩
    · cases h
      exact absurd hrest (by simp)

theorem exists_isUnsigned {negative : Bool} {text : List UInt8} {result : Float64Bits × Bool}
    (h : parseUnsigned negative text = some result) : ∃ whole frac, IsUnsigned text whole frac := by
  obtain ⟨whole, tail, rfl, hwhole, htail⟩ := exists_digits text
  obtain ⟨rangeError, w, _, hloop⟩ := wholeLoop_spec hwhole htail wholeRead_zero 0
  rw [parseUnsigned, hloop] at h
  dsimp only at h
  split_ifs at h with hcount
  cases hscan : fracScan rangeError tail with
  | none =>
    rw [hscan] at h
    contradiction
  | some found =>
    rw [hscan] at h
    dsimp only at h
    by_cases hrest : found.rest = []
    · obtain ⟨frac, hfraction⟩ := exists_isFraction hscan hrest
      refine ⟨whole, frac, ?_, hwhole, tail, rfl, hfraction⟩
      rintro rfl
      exact hcount rfl
    · rw [if_pos hrest] at h
      contradiction

theorem IsUnsigned.head_isDigit {ch : UInt8} {text whole frac : List UInt8}
    (h : IsUnsigned (ch :: text) whole frac) : isDigit ch = true := by
  obtain ⟨tail, htext, _⟩ := h.exists_fraction
  cases whole with
  | nil => exact absurd rfl h.whole_ne_nil
  | cons first whole =>
    cases htext
    exact h.wholeDigits.head

theorem IsUnsigned.ne_nil {text whole frac : List UInt8} (h : IsUnsigned text whole frac) :
    text ≠ [] := by
  obtain ⟨tail, rfl, _⟩ := h.exists_fraction
  exact fun hnil => h.whole_ne_nil (List.append_eq_nil_iff.mp hnil).1

theorem IsDecimal.exists_parseUnsigned {token whole frac : List UInt8} {negative : Bool}
    (h : IsDecimal token negative whole frac) :
    ∃ text, IsUnsigned text whole frac ∧ mcParseDecimal token = parseUnsigned negative text := by
  cases h with
  | unsigned h =>
    refine ⟨token, h, ?_⟩
    cases token with
    | nil => exact absurd rfl h.ne_nil
    | cons ch rest =>
      rw [mcParseDecimal_cons, if_neg]
      have hdigit := h.head_isDigit
      rintro (rfl | rfl)
      · exact absurd hdigit (by decide)
      · exact absurd hdigit (by decide)
  | plus h => exact ⟨_, h, by rw [mcParseDecimal_cons, if_pos (.inr rfl), if_neg h.ne_nil]; rfl⟩
  | minus h => exact ⟨_, h, by rw [mcParseDecimal_cons, if_pos (.inl rfl), if_neg h.ne_nil]; rfl⟩

theorem IsDecimal.mcParseDecimal_eq {token whole frac : List UInt8} {negative : Bool}
    (h : IsDecimal token negative whole frac) :
    (30000000 < decimalAbs whole frac ∧ mcParseDecimal token = some (0, true)) ∨
      (decimalAbs whole frac ≤ 30000000 ∧
        ∃ bits, mcParseDecimal token = some (bits, false) ∧
          Assembles negative whole frac bits) := by
  obtain ⟨text, hunsigned, hparse⟩ := h.exists_parseUnsigned
  rw [hparse]
  exact parseUnsigned_of_isUnsigned negative hunsigned

/-- Nothing but the numbers of the grammar is accepted. -/
theorem exists_isDecimal {token : List UInt8} {result : Float64Bits × Bool}
    (h : mcParseDecimal token = some result) :
    ∃ negative whole frac, IsDecimal token negative whole frac := by
  cases token with
  | nil => contradiction
  | cons ch rest =>
    rw [mcParseDecimal_cons] at h
    split_ifs at h with hsign hnil
    · obtain ⟨whole, frac, hunsigned⟩ := exists_isUnsigned h
      rcases hsign with rfl | rfl
      · exact ⟨true, whole, frac, .minus hunsigned⟩
      · exact ⟨false, whole, frac, .plus hunsigned⟩
    · obtain ⟨whole, frac, hunsigned⟩ := exists_isUnsigned h
      exact ⟨false, whole, frac, .unsigned hunsigned⟩

end StarrySky.Core
