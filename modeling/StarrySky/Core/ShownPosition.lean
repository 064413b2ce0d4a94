import StarrySky.Core.ChatAccepted
import StarrySky.Core.CommandGrammar
import StarrySky.Core.CoordinateOrder

/-! What `/pos` shows after `/tp`: the number that was typed. -/

namespace StarrySky.Core
open StarrySky.Base

namespace McTextBuilder

/-- The digits that `append_u32` adds. -/
def u32Text (value : UInt32) : List UInt8 := if value = 0 then [0x30] else u32Digits value 10 []

/-- What `append_fixed2_scaled` adds. -/
def fixed2Text (negative : Bool) (scaled : UInt32) : List UInt8 :=
  (if negative ∧ scaled ≠ 0 then [0x2d] else []) ++ u32Text (scaled / 100) ++
    [0x2e, 0x30 + (scaled % 100 / 10).toUInt8, 0x30 + (scaled % 100 % 10).toUInt8]

theorem appendChar_eq {builder : McTextBuilder} (ch : UInt8)
    (h : builder.text.length + 1 < builder.cap) :
    builder.appendChar ch = some { builder with text := builder.text ++ [ch] } :=
  if_neg (Nat.not_le.mpr h)

theorem foldlM_appendChar {chars : List UInt8} {builder : McTextBuilder}
    (h : builder.text.length + chars.length < builder.cap) :
    chars.foldlM appendChar builder = some { builder with text := builder.text ++ chars } := by
  induction chars generalizing builder with
  | nil => rw [List.foldlM_nil, List.append_nil]; rfl
  | cons ch chars ih =>
    rw [List.length_cons] at h
    have hnext : (builder.text ++ [ch]).length + chars.length < builder.cap := by
      rw [List.length_append, List.length_singleton]
      omega
    rw [List.foldlM_cons, appendChar_eq ch (by omega), Option.bind_eq_bind, Option.bind_some,
      ih hnext, List.append_assoc]
    rfl

theorem appendU32_eq {builder : McTextBuilder} {value : UInt32}
    (h : builder.text.length + (u32Text value).length < builder.cap) :
    builder.appendU32 value = some { builder with text := builder.text ++ u32Text value } := by
  rw [appendU32]
  rw [u32Text] at h ⊢
  split_ifs at h ⊢ with hzero
  · exact appendChar_eq 0x30 h
  · exact foldlM_appendChar h

theorem length_u32Text_le (value : UInt32) : (u32Text value).length ≤ 10 := by
  rw [u32Text]
  split_ifs
  · decide
  · exact length_u32Digits_le value 10 []

theorem length_fixed2Text_le (negative : Bool) (scaled : UInt32) :
    (fixed2Text negative scaled).length ≤ 14 := by
  have hdigits := length_u32Text_le (scaled / 100)
  rw [fixed2Text, List.length_append, List.length_append]
  split_ifs
  · simp only [List.length_cons, List.length_nil]
    omega
  · simp only [List.length_cons, List.length_nil]
    omega

theorem appendFixed2Scaled_eq {builder : McTextBuilder} {negative : Bool} {scaled : UInt32}
    (h : builder.text.length + (fixed2Text negative scaled).length < builder.cap) :
    builder.appendFixed2Scaled negative scaled =
      some { builder with text := builder.text ++ fixed2Text negative scaled } := by
  have hunsigned : ∀ signed : McTextBuilder,
      signed.text.length + (u32Text (scaled / 100)).length + 3 < signed.cap →
        (do
          let builder ← signed.appendU32 (scaled / 100)
          let builder ← builder.appendChar 0x2e
          let builder ← builder.appendChar (0x30 + (scaled % 100 / 10).toUInt8)
          builder.appendChar (0x30 + (scaled % 100 % 10).toUInt8)) =
        some { signed with text := signed.text ++ u32Text (scaled / 100) ++
          [0x2e, 0x30 + (scaled % 100 / 10).toUInt8, 0x30 + (scaled % 100 % 10).toUInt8] } := by
    intro signed hroom
    rw [appendU32_eq (by omega)]
    simp only [Option.bind_eq_bind, Option.bind_some]
    rw [appendChar_eq _ (by simp only [List.length_append]; omega), Option.bind_some,
      appendChar_eq _ (by simp only [List.length_append, List.length_singleton]; omega),
      Option.bind_some,
      appendChar_eq _ (by simp only [List.length_append, List.length_singleton]; omega)]
    simp only [List.append_assoc, List.cons_append, List.nil_append]
  rw [appendFixed2Scaled]
  rw [fixed2Text] at h ⊢
  split_ifs at h ⊢ with hsign
  · simp only [List.length_append, List.length_cons, List.length_nil] at h
    rw [appendChar_eq _ (by omega)]
    refine (hunsigned { builder with text := builder.text ++ [0x2d] } ?_).trans ?_
    · simp only [List.length_append, List.length_singleton]
      omega
    · simp only [List.append_assoc]
  · simp only [List.length_append, List.length_cons, List.length_nil] at h
    refine (hunsigned builder (by omega)).trans ?_
    simp only [List.append_assoc, List.nil_append]

theorem toNat_shownDigit {n : UInt32} (h : n.toNat < 10) :
    (0x30 + n.toUInt8).toNat = 48 + n.toNat := by
  have hzero : (0x30 : UInt8).toNat = 48 := rfl
  rw [UInt8.toNat_add, UInt32.toNat_toUInt8, hzero]
  omega

theorem isDigit_shownDigit {n : UInt32} (h : n.toNat < 10) : isDigit (0x30 + n.toUInt8) = true := by
  have hlow : (0x30 : UInt8).toNat = 48 := rfl
  have hhigh : (0x39 : UInt8).toNat = 57 := rfl
  rw [isDigit, decide_eq_true_iff, UInt8.le_iff_toNat_le, UInt8.le_iff_toNat_le,
    toNat_shownDigit h]
  omega

theorem digitValue_shownDigit {n : UInt32} (h : n.toNat < 10) :
    digitValue (0x30 + n.toUInt8) = n.toNat := by
  have hlow : (0x30 : UInt8).toNat = 48 := rfl
  have hle : (0x30 : UInt8) ≤ 0x30 + n.toUInt8 := by
    rw [UInt8.le_iff_toNat_le, toNat_shownDigit h]
    omega
  rw [digitValue, UInt8.toNat_sub_of_le _ _ hle, toNat_shownDigit h]
  omega

theorem toNat_mod_ten (value : UInt32) : (value % 10).toNat = value.toNat % 10 :=
  UInt32.toNat_mod _ _

theorem toNat_div_ten (value : UInt32) : (value / 10).toNat = value.toNat / 10 :=
  UInt32.toNat_div _ _

theorem digitsFrom_u32Digits {value : UInt32} {room : ℕ} (h : value.toNat < 10 ^ room)
    (digits : List UInt8) :
    digitsFrom 0 (u32Digits value room digits) = digitsFrom value.toNat digits := by
  -- The loop puts the digits of `value` in front of those it has.
  induction room generalizing value digits with
  | zero =>
    have hzero : value.toNat = 0 := by omega
    rw [u32Digits, hzero]
  | succ room ih =>
    have hdigit : (value % 10).toNat < 10 := by
      rw [toNat_mod_ten]
      exact Nat.mod_lt _ (by decide)
    rw [u32Digits]
    split_ifs with hpos
    · have hnext : (value / 10).toNat < 10 ^ room := by
        rw [toNat_div_ten]
        exact Nat.div_lt_of_lt_mul (by rwa [← pow_succ'])
      rw [ih hnext, digitsFrom, List.foldl_cons, digitValue_shownDigit hdigit, toNat_div_ten,
        toNat_mod_ten, Nat.div_add_mod]
      rfl
    · have hzero : value.toNat = 0 := by
        rw [gt_iff_lt, UInt32.lt_iff_toNat_lt, UInt32.toNat_zero] at hpos
        omega
      rw [hzero]

theorem isDigits_u32Digits (value : UInt32) (room : ℕ) {digits : List UInt8}
    (h : IsDigits digits) : IsDigits (u32Digits value room digits) := by
  induction room generalizing value digits with
  | zero => exact h
  | succ room ih =>
    rw [u32Digits]
    split_ifs
    · refine ih _ fun ch hch => ?_
      rw [List.mem_cons] at hch
      obtain rfl | hmem := hch
      · apply isDigit_shownDigit
        rw [toNat_mod_ten]
        exact Nat.mod_lt _ (by decide)
      · exact h ch hmem
    · exact h

theorem head_u32Digits {value : UInt32} {room : ℕ} (h : value.toNat < 10 ^ room)
    (hpos : value ≠ 0) (digits : List UInt8) :
    (u32Digits value room digits).head? ≠ some 0x30 ∧ u32Digits value room digits ≠ [] := by
  have hne : value.toNat ≠ 0 := fun hzero => hpos (UInt32.toNat_inj.mp hzero)
  induction room generalizing value digits with
  | zero => omega
  | succ room ih =>
    have hmore : value > 0 := by
      rw [gt_iff_lt, UInt32.lt_iff_toNat_lt, UInt32.toNat_zero]
      omega
    have hnext : (value / 10).toNat < 10 ^ room := by
      rw [toNat_div_ten]
      exact Nat.div_lt_of_lt_mul (by rwa [← pow_succ'])
    have hdigit : (value % 10).toNat < 10 := by
      rw [toNat_mod_ten]
      exact Nat.mod_lt _ (by decide)
    rw [u32Digits, if_pos hmore]
    by_cases hlast : value / 10 = 0
    · -- this is the first digit
      have hstop : ∀ ds, u32Digits (value / 10) room ds = ds := by
        intro ds
        rw [hlast]
        cases room with
        | zero => rfl
        | succ room => rw [u32Digits, if_neg (by decide)]
      rw [hstop]
      refine ⟨fun hhead => ?_, List.cons_ne_nil _ _⟩
      rw [List.head?_cons, Option.some.injEq, ← UInt8.toNat_inj, toNat_shownDigit hdigit,
        toNat_mod_ten] at hhead
      have hquotient := congrArg UInt32.toNat hlast
      rw [toNat_div_ten, UInt32.toNat_zero] at hquotient
      have hzero : (0x30 : UInt8).toNat = 48 := rfl
      omega
    · exact ih hnext hlast _ fun hzero => hlast (UInt32.toNat_inj.mp hzero)

/-- A whole number as it is shown. -/
structure ShowsWhole (value : ℕ) (shown : List UInt8) : Prop where
  ne_nil : shown ≠ []
  isDigits : IsDigits shown
  value_eq : digitsValue shown = value
  noLeadingZero : shown = [0x30] ∨ shown.head? ≠ some 0x30

theorem showsWhole_u32Text (value : UInt32) : ShowsWhole value.toNat (u32Text value) := by
  have hlt : value.toNat < 10 ^ 10 := value.toNat_lt.trans (by norm_num)
  rw [u32Text]
  split_ifs with hzero
  · rw [hzero]
    have hdigits : IsDigits [0x30] := by decide +kernel
    have hvalue : digitsValue [0x30] = (0 : UInt32).toNat := by decide
    exact ⟨List.cons_ne_nil _ _, hdigits, hvalue, .inl rfl⟩
  · obtain ⟨hhead, hne⟩ := head_u32Digits hlt hzero []
    exact ⟨hne, isDigits_u32Digits value 10 (by simp [IsDigits]),
      digitsFrom_u32Digits hlt [], .inr hhead⟩

end McTextBuilder

open McTextBuilder (u32Text fixed2Text ShowsWhole)

/-- `shown` is `value` with two decimals. -/
def ShowsDecimal (value : ℚ) (shown : List UInt8) : Prop :=
  ∃ n whole frac, shown = (if value < 0 then [0x2d] else []) ++ whole ++ 0x2e :: frac ∧
    ShowsWhole n whole ∧ IsDigits frac ∧ frac.length = 2 ∧ decimalAbs whole frac = |value|

theorem showsDecimal_fixed2Text {value : ℚ} {negative : Bool} {scaled : UInt32}
    (hscaled : (scaled.toNat : ℚ) = 100 * |value|)
    (hsign : scaled ≠ 0 → (negative = true ↔ value < 0)) :
    ShowsDecimal value (fixed2Text negative scaled) := by
  have hhundred : (100 : UInt32).toNat = 100 := rfl
  have hmod : (scaled % 100).toNat = scaled.toNat % 100 := UInt32.toNat_mod _ _
  have htens : (scaled % 100 / 10).toNat < 10 := by
    rw [McTextBuilder.toNat_div_ten, hmod]
    omega
  have hunits : (scaled % 100 % 10).toNat < 10 := by
    rw [McTextBuilder.toNat_mod_ten]
    exact Nat.mod_lt _ (by decide)
  have hminus : (negative = true ∧ scaled ≠ 0) ↔ value < 0 := by
    by_cases hzero : scaled = 0
    · rw [hzero, UInt32.toNat_zero, Nat.cast_zero] at hscaled
      have hvalue : value = 0 := abs_eq_zero.mp (by linarith)
      rw [hvalue]
      simp [hzero]
    · rw [and_iff_left hzero]
      exact hsign hzero
  refine ⟨_, u32Text (scaled / 100),
    [0x30 + (scaled % 100 / 10).toUInt8, 0x30 + (scaled % 100 % 10).toUInt8], ?_,
    McTextBuilder.showsWhole_u32Text _, ?_, rfl, ?_⟩
  · rw [fixed2Text]
    simp only [hminus]
  · intro ch hch
    simp only [List.mem_cons, List.not_mem_nil, or_false] at hch
    obtain rfl | rfl := hch
    · exact McTextBuilder.isDigit_shownDigit htens
    · exact McTextBuilder.isDigit_shownDigit hunits
  · have hwhole : (scaled / 100).toNat = scaled.toNat / 100 := UInt32.toNat_div _ _
    have hfrac : digitsValue
        [0x30 + (scaled % 100 / 10).toUInt8, 0x30 + (scaled % 100 % 10).toUInt8] =
          scaled.toNat % 100 := by
      rw [digitsValue, digitsFrom, List.foldl_cons, List.foldl_cons, List.foldl_nil,
        McTextBuilder.digitValue_shownDigit htens, McTextBuilder.digitValue_shownDigit hunits,
        McTextBuilder.toNat_div_ten, McTextBuilder.toNat_mod_ten, hmod]
      omega
    have hsplit : ((scaled.toNat / 100 : ℕ) : ℚ) * 100 + ((scaled.toNat % 100 : ℕ) : ℚ) =
        scaled.toNat := by
      exact_mod_cast Nat.div_add_mod' scaled.toNat 100
    rw [decimalAbs, (McTextBuilder.showsWhole_u32Text _).value_eq, hfrac, hwhole,
      List.length_cons, List.length_singleton]
    linarith

/-- `word` is a number with at most two decimals. -/
def TwoDecimals (word : List UInt8) (value : ℚ) : Prop :=
  ∃ negative whole frac, IsDecimal word negative whole frac ∧ frac.length ≤ 2 ∧
    value = decimalValue negative whole frac

theorem exists_hundredths (whole : List UInt8) {frac : List UInt8} (h : frac.length ≤ 2) :
    ∃ n : ℕ, (n : ℚ) = 100 * decimalAbs whole frac := by
  have hsplit : (10 : ℚ) ^ (2 - frac.length) * 10 ^ frac.length = 100 := by
    rw [← pow_add, Nat.sub_add_cancel h]
    norm_num
  have hpow : (10 : ℚ) ^ frac.length ≠ 0 := by positivity
  refine ⟨100 * digitsValue whole + digitsValue frac * 10 ^ (2 - frac.length), ?_⟩
  push_cast
  rw [decimalAbs, mul_add, ← hsplit]
  field_simp

theorem abs_decimalValue (negative : Bool) (whole frac : List UInt8) :
    |decimalValue negative whole frac| = decimalAbs whole frac := by
  have hnonneg := abs_of_nonneg (decimalAbs_nonneg whole frac)
  rw [decimalValue]
  cases negative with
  | false => exact hnonneg
  | true => exact (abs_neg _).trans hnonneg

theorem decimalValue_neg_iff {negative : Bool} {whole frac : List UInt8}
    (h : decimalAbs whole frac ≠ 0) : decimalValue negative whole frac < 0 ↔ negative = true := by
  have hnonneg := decimalAbs_nonneg whole frac
  have hpos : 0 < decimalAbs whole frac := lt_of_le_of_ne hnonneg h.symm
  rw [decimalValue]
  cases negative with
  | false => simp [hnonneg]
  | true => simp [hpos]

theorem abs_value_eq (format : BinaryFormat) (pattern : ℕ) :
    |format.value pattern| = format.magnitude pattern := by
  have hnonneg := abs_of_nonneg (format.magnitude_nonneg pattern)
  rw [BinaryFormat.value]
  split_ifs
  · exact (abs_neg _).trans hnonneg
  · exact hnonneg

theorem value_neg_iff {format : BinaryFormat} {pattern : ℕ} (h : format.value pattern ≠ 0) :
    format.value pattern < 0 ↔ format.sign pattern = true := by
  have hnonneg := format.magnitude_nonneg pattern
  rw [BinaryFormat.value] at h ⊢
  split_ifs at h ⊢ with hsign
  · have hne : format.magnitude pattern ≠ 0 := fun hzero => h (by rw [hzero, neg_zero])
    simpa [hsign] using lt_of_le_of_ne hnonneg hne.symm
  · simp [hsign, hnonneg]

theorem mcDoubleToFixed2_typed {word : List UInt8} {value : ℚ} {bits : Float64Bits}
    (h : TwoDecimals word value) (hparse : mcParseDecimal word = some (bits, false)) :
    ∃ number, mcDoubleToFixed2 bits = some number ∧
      ShowsDecimal value (fixed2Text number.1 number.2) := by
  -- The display of an accepted number is within half a hundredth of a whole number of them, and so
  -- it is that number.
  obtain ⟨negative, whole, frac, hdecimal, hlength, rfl⟩ := h
  have haccurate := hdecimal.isAccurate hparse
  have hle := (hdecimal.isNearestDouble hparse).1
  obtain ⟨n, hn⟩ := exists_hundredths whole hlength
  have hnear := (abs_abs_sub_abs_le _ _).trans_lt haccurate.near
  rw [abs_value_eq, abs_decimalValue] at hnear
  -- the hundredths of the double round to those that were typed
  have hround : roundHalfEven (100 * BinaryFormat.binary64.magnitude bits.toNat) = (n : ℤ) := by
    apply roundHalfEven_eq_of_abs_sub_lt
    rw [Int.cast_natCast, hn, ← mul_sub, abs_mul, abs_of_pos (by norm_num : (0 : ℚ) < 100)]
    linarith
  have hlimit : n ≤ 3000000000 := by
    have hcast : (n : ℚ) ≤ (3000000000 : ℕ) := by
      rw [hn]
      push_cast
      linarith
    exact_mod_cast hcast
  have htoNat : (UInt32.ofNat n).toNat = n := by
    rw [UInt32.toNat_ofNat']
    omega
  refine ⟨(BinaryFormat.binary64.sign bits.toNat && decide ((n : ℤ) ≠ 0), UInt32.ofNat n), ?_,
    showsDecimal_fixed2Text ?_ fun hne => ?_⟩
  · rw [mcDoubleToFixed2_eq, if_pos haccurate.isFinite, exactFixed2, hround]
    rw [if_pos (by exact_mod_cast hlimit), Int.toNat_natCast]
  · rw [htoNat, abs_decimalValue, hn]
  · have hcount : n ≠ 0 := by
      rintro rfl
      exact hne rfl
    have hone : (1 : ℚ) ≤ 100 * decimalAbs whole frac := by
      rw [← hn]
      exact_mod_cast Nat.one_le_iff_ne_zero.mpr hcount
    have htyped : decimalAbs whole frac ≠ 0 := by
      intro hzero
      rw [hzero] at hone
      linarith
    have hvalue : BinaryFormat.binary64.value bits.toNat ≠ 0 := by
      intro hzero
      rw [← abs_value_eq, hzero, abs_zero, zero_sub, abs_neg,
        abs_of_nonneg (decimalAbs_nonneg whole frac)] at hnear
      linarith
    rw [decimalValue_neg_iff htyped, ← haccurate.neg_iff hvalue, value_neg_iff hvalue]
    simp [hcount]

theorem mcHandleTp_teleport {command x y z : List UInt8} {ctx : McCommandContext}
    {result : McCommandResult} {position : McCommandPosition}
    (h : mcHandleTp [command, x, y, z] ctx = some result)
    (haction : result.action = .teleport position) :
    mcParseDecimal x = some (position.x, false) ∧ mcParseDecimal y = some (position.y, false) ∧
      mcParseDecimal z = some (position.z, false) ∧ position.yaw = ctx.position.yaw ∧
      position.pitch = ctx.position.pitch := by
  have hchat : ∀ {text}, mcSetChat text = some result → False := by
    intro text htext
    have := action_mcCopyChat htext
    rw [this] at haction
    contradiction
  rw [mcHandleTp] at h
  split at h
  case h_1 bitsX farX bitsY farY bitsZ farZ hx hy hz =>
    split_ifs at h with hfar
    · exact absurd h fun h => hchat h
    · simp only [not_or, Bool.not_eq_true] at hfar
      obtain ⟨rfl, rfl, rfl⟩ := hfar
      have hposition := action_mcCopyChat h
      rw [haction] at hposition
      cases hposition
      exact ⟨hx, hy, hz, rfl, rfl⟩
  case h_2 => exact absurd h fun h => hchat h

namespace McTextBuilder

/-- A label and a number behind the text. -/
def labelled (builder : McTextBuilder) (label : List UInt8) (number : Bool × UInt32) :
    McTextBuilder :=
  { builder with text := builder.text ++ label ++ fixed2Text number.1 number.2 }

theorem length_labelled_le (builder : McTextBuilder) (label : List UInt8)
    (number : Bool × UInt32) :
    (builder.labelled label number).text.length ≤ builder.text.length + label.length + 14 := by
  have hnumber := length_fixed2Text_le number.1 number.2
  rw [labelled, List.length_append, List.length_append]
  omega

theorem bind_labelled {β : Type} {builder : McTextBuilder} {label : List UInt8}
    {number : Bool × UInt32} {next : McTextBuilder → Option β}
    (h : builder.text.length + label.length + 14 < builder.cap) :
    (builder.appendCstr label >>= fun builder =>
      builder.appendFixed2Scaled number.1 number.2 >>= next) =
        next (builder.labelled label number) := by
  have hnumber := length_fixed2Text_le number.1 number.2
  have hroom : ({ builder with text := builder.text ++ label } : McTextBuilder).text.length +
      (fixed2Text number.1 number.2).length < builder.cap := by
    rw [List.length_append]
    omega
  rw [appendCstr_eq, if_pos (by omega), Option.bind_eq_bind, Option.bind_some,
    appendFixed2Scaled_eq hroom, Option.bind_some]
  rfl

/-- A builder of a chat answer with at most `n` bytes in it. -/
structure AtMost (builder : McTextBuilder) (n : ℕ) : Prop where
  cap_eq : builder.cap = mcCommandTextCap
  length_le : builder.text.length ≤ n

theorem AtMost.labelled {builder : McTextBuilder} {n k : ℕ} (h : builder.AtMost n)
    {label : List UInt8} (hlabel : label.length = k) (number : Bool × UInt32) :
    (builder.labelled label number).AtMost (n + k + 14) := by
  have hlength := builder.length_labelled_le label number
  have hbefore := h.length_le
  exact ⟨h.cap_eq, by omega⟩

theorem AtMost.bind_labelled {β : Type} {builder : McTextBuilder} {n k : ℕ} (h : builder.AtMost n)
    {label : List UInt8} (hlabel : label.length = k) (hroom : n + k + 14 < mcCommandTextCap)
    {number : Bool × UInt32} {next : McTextBuilder → Option β} :
    (builder.appendCstr label >>= fun builder =>
      builder.appendFixed2Scaled number.1 number.2 >>= next) =
        next (builder.labelled label number) := by
  have hbefore := h.length_le
  have hcap := h.cap_eq
  exact McTextBuilder.bind_labelled (by omega)

end McTextBuilder

def positionText (x y z yaw pitch : List UInt8) : List UInt8 :=
  cText "Known position: x=" ++ x ++ cText " y=" ++ y ++ cText " z=" ++ z ++ cText " yaw=" ++ yaw ++
    cText " pitch=" ++ pitch

theorem mcHandlePos_eq {ctx : McCommandContext} {x y z yaw pitch : Bool × UInt32}
    (hx : mcDoubleToFixed2 ctx.position.x = some x) (hy : mcDoubleToFixed2 ctx.position.y = some y)
    (hz : mcDoubleToFixed2 ctx.position.z = some z)
    (hyaw : mcFloatToFixed2 ctx.position.yaw = some yaw)
    (hpitch : mcFloatToFixed2 ctx.position.pitch = some pitch) :
    mcHandlePos ctx = some
      { action := .chat
        chat := positionText (fixed2Text x.1 x.2) (fixed2Text y.1 y.2) (fixed2Text z.1 z.2)
          (fixed2Text yaw.1 yaw.2) (fixed2Text pitch.1 pitch.2) } := by
  have hlabelX : (cText "Known position: x=").length = 18 := by decide +kernel
  have hlabelY : (cText " y=").length = 3 := by decide +kernel
  have hlabelZ : (cText " z=").length = 3 := by decide +kernel
  have hlabelYaw : (cText " yaw=").length = 5 := by decide +kernel
  have hlabelPitch : (cText " pitch=").length = 7 := by decide +kernel
  rw [mcHandlePos, hx, hy, hz, hyaw, hpitch]
  dsimp only
  -- 36 bytes of labels and five numbers of at most 14
  have hstart : (McTextBuilder.init mcCommandTextCap).AtMost 0 := ⟨rfl, le_rfl⟩
  have htextX := hstart.labelled hlabelX x
  have htextY := htextX.labelled hlabelY y
  have htextZ := htextY.labelled hlabelZ z
  have htextYaw := htextZ.labelled hlabelYaw yaw
  rw [hstart.bind_labelled hlabelX (by decide), htextX.bind_labelled hlabelY (by decide),
    htextY.bind_labelled hlabelZ (by decide), htextZ.bind_labelled hlabelYaw (by decide),
    htextYaw.bind_labelled hlabelPitch (by decide)]
  simp only [McTextBuilder.labelled, McTextBuilder.init, positionText, List.nil_append]
  rfl

theorem mcHandlePos_unavailable {ctx : McCommandContext}
    (h : mcFloatToFixed2 ctx.position.yaw = none ∨ mcFloatToFixed2 ctx.position.pitch = none) :
    mcHandlePos ctx = mcSetChat "Known position unavailable." := by
  rw [mcHandlePos]
  split
  case h_1 hyaw hpitch =>
    obtain hnone | hnone := h
    · rw [hyaw] at hnone
      contradiction
    · rw [hpitch] at hnone
      contradiction
  case h_2 => rfl

theorem handleTokens_pos (ctx : McCommandContext) :
    handleTokens [cText "/pos"] ctx = mcHandlePos ctx := by
  rw [handleTokens, if_neg (by simp), if_neg (by decide), if_neg (by decide), if_neg (by decide),
    if_pos rfl, if_neg (by simp)]

/-- `/tp` was accepted, and `/pos` comes next: it shows the numbers that were typed, as long as
the rotation it shows with them can be shown. -/
theorem pos_showsTyped {username username' message message' x y z : List UInt8}
    {server : McServer} {result : McCommandResult} {position : McCommandPosition}
    {valueX valueY valueZ : ℚ} (hslash : message.head? = some 0x2f)
    (htokens : mcSplitSpaces message = [cText "/tp", x, y, z]) (hx : TwoDecimals x valueX)
    (hy : TwoDecimals y valueY) (hz : TwoDecimals z valueZ)
    (htp : mcCommandsHandleChat username message (buildCommandContext server) = some result)
    (haction : result.action = .teleport position) (hslash' : message'.head? = some 0x2f)
    (htokens' : mcSplitSpaces message' = [cText "/pos"]) :
    (∀ yaw pitch, mcFloatToFixed2 server.player.yaw = some yaw →
      mcFloatToFixed2 server.player.pitch = some pitch →
        ∃ shownX shownY shownZ,
          mcCommandsHandleChat username' message'
              (buildCommandContext (applyCommandResult server result)) =
            some { action := .chat
                   chat := positionText shownX shownY shownZ (fixed2Text yaw.1 yaw.2)
                     (fixed2Text pitch.1 pitch.2) } ∧
          ShowsDecimal valueX shownX ∧ ShowsDecimal valueY shownY ∧
          ShowsDecimal valueZ shownZ) ∧
    (mcFloatToFixed2 server.player.yaw = none ∨ mcFloatToFixed2 server.player.pitch = none →
      mcCommandsHandleChat username' message'
          (buildCommandContext (applyCommandResult server result)) =
        some { action := .chat, chat := cText "Known position unavailable." }) := by
  rw [mcCommandsHandleChat_slash hslash, htokens, handleTokens_tp (by simp)] at htp
  rw [mcCommandsHandleChat_slash hslash', htokens', handleTokens_pos, applyCommandResult, haction]
  obtain ⟨hparseX, hparseY, hparseZ, hyaw, hpitch⟩ := mcHandleTp_teleport htp haction
  obtain ⟨numberX, hnumberX, hshowsX⟩ := mcDoubleToFixed2_typed hx hparseX
  obtain ⟨numberY, hnumberY, hshowsY⟩ := mcDoubleToFixed2_typed hy hparseY
  obtain ⟨numberZ, hnumberZ, hshowsZ⟩ := mcDoubleToFixed2_typed hz hparseZ
  have hkeptYaw : position.yaw = server.player.yaw := hyaw
  have hkeptPitch : position.pitch = server.player.pitch := hpitch
  refine ⟨fun yaw pitch hshownYaw hshownPitch => ?_, fun hnone => ?_⟩
  · rw [← hkeptYaw] at hshownYaw
    rw [← hkeptPitch] at hshownPitch
    exact ⟨_, _, _, mcHandlePos_eq hnumberX hnumberY hnumberZ hshownYaw hshownPitch, hshowsX,
      hshowsY, hshowsZ⟩
  · rw [← hkeptYaw, ← hkeptPitch] at hnone
    have hanswer : mcSetChat "Known position unavailable." =
        some { action := .chat, chat := cText "Known position unavailable." } :=
      mcCopyChat_eq (by decide +kernel)
    have hunavailable :=
      @mcHandlePos_unavailable (buildCommandContext { server with player := position }) hnone
    exact hunavailable.trans hanswer

theorem twoDecimals_minusHalf : TwoDecimals (cText "-0.5") (-1 / 2) := by
  refine ⟨true, [0x30], [0x35], .minus ⟨by simp, by decide +kernel, [0x2e, 0x35], rfl,
    .point (by simp) (by decide +kernel)⟩, by decide, ?_⟩
  have hwhole : digitsValue [0x30] = 0 := by decide
  have hfrac : digitsValue [0x35] = 5 := by decide
  rw [decimalValue, if_pos rfl, decimalAbs, hwhole, hfrac]
  norm_num

theorem twoDecimals_seven : TwoDecimals (cText "07") 7 := by
  refine ⟨false, [0x30, 0x37], [], .unsigned ⟨by simp, by decide +kernel, [], rfl, .absent⟩,
    by decide, ?_⟩
  have hwhole : digitsValue [0x30, 0x37] = 7 := by decide
  rw [decimalValue, if_neg (by decide), decimalAbs, hwhole]
  norm_num [digitsValue, digitsFrom]

/-- A player who teleports to -0.5 7 -0.5. -/
theorem pos_showsTyped_half :
    ∃ shownX shownY shownZ yaw pitch result,
      mcCommandsHandleChat [] (cText "/pos")
          (buildCommandContext (applyCommandResult loginDone.2.1 result)) =
        some { action := .chat
               chat := positionText shownX shownY shownZ (fixed2Text yaw (0 : UInt32))
                 (fixed2Text pitch (0 : UInt32)) } ∧
      ShowsDecimal (-1 / 2) shownX ∧ ShowsDecimal 7 shownY ∧ ShowsDecimal (-1 / 2) shownZ := by
  have htp : mcCommandsHandleChat [] (cText "/tp -0.5 07 -0.5") (buildCommandContext loginDone.2.1) =
      some { action := .teleport
               { x := 0xbfe0000000400000, y := 0x401c000000000000, z := 0xbfe0000000400000
                 yaw := 0, pitch := 0 }
             chat := cText "Teleported." } := by decide +kernel
  have hslash : (cText "/pos").head? = some 0x2f := by decide +kernel
  have htokens : mcSplitSpaces (cText "/pos") = [cText "/pos"] := by decide +kernel
  obtain ⟨shownX, shownY, shownZ, hshown⟩ := (pos_showsTyped (by decide +kernel)
    (by decide +kernel) twoDecimals_minusHalf twoDecimals_seven twoDecimals_minusHalf htp rfl
    hslash htokens).1 (false, 0) (false, 0) (by decide +kernel) (by decide +kernel)
  exact ⟨shownX, shownY, shownZ, false, false, _, hshown⟩

/-- Bob turns by an angle that is not a number. -/
def turnedServer : McServer :=
  (handlePacket compressionConfig loginDone.2.1 [5, 0x7f, 0xc0, 0, 0, 0, 0, 0, 0, 1]
    ⟨.init 49152, []⟩).2.1

/-- Then `/pos` shows no number at all. -/
theorem pos_showsTyped_notANumber :
    ¬∀ (username username' message message' x y z : List UInt8) (server : McServer)
      (result : McCommandResult) (position : McCommandPosition) (valueX valueY valueZ : ℚ),
      message.head? = some 0x2f → mcSplitSpaces message = [cText "/tp", x, y, z] →
      TwoDecimals x valueX → TwoDecimals y valueY → TwoDecimals z valueZ →
      mcCommandsHandleChat username message (buildCommandContext server) = some result →
      result.action = .teleport position → message'.head? = some 0x2f →
      mcSplitSpaces message' = [cText "/pos"] →
        ∃ shownX shownY shownZ yaw pitch answer,
          mcCommandsHandleChat username' message'
            (buildCommandContext (applyCommandResult server result)) = some answer ∧
          answer.chat = positionText shownX shownY shownZ yaw pitch ∧
          ShowsDecimal valueX shownX ∧ ShowsDecimal valueY shownY ∧ ShowsDecimal valueZ shownZ := by
  intro hall
  have htp : mcCommandsHandleChat [] (cText "/tp 07 07 07") (buildCommandContext turnedServer) =
      some { action := .teleport
               { x := 0x401c000000000000, y := 0x401c000000000000, z := 0x401c000000000000
                 yaw := 0x7fc00000, pitch := 0 }
             chat := cText "Teleported." } := by decide +kernel
  have hslash : (cText "/pos").head? = some 0x2f := by decide +kernel
  have htokens : mcSplitSpaces (cText "/pos") = [cText "/pos"] := by decide +kernel
  obtain ⟨shownX, shownY, shownZ, yaw, pitch, answer, hanswer, hchat, _⟩ :=
    hall [] [] _ _ _ _ _ _ _ _ _ _ _ (by decide +kernel) (by decide +kernel) twoDecimals_seven
      twoDecimals_seven twoDecimals_seven htp rfl hslash htokens
  have hunavailable : mcCommandsHandleChat [] (cText "/pos")
      (buildCommandContext (applyCommandResult turnedServer
        { action := .teleport
            { x := 0x401c000000000000, y := 0x401c000000000000, z := 0x401c000000000000
              yaw := 0x7fc00000, pitch := 0 }
          chat := cText "Teleported." })) =
        some { action := .chat, chat := cText "Known position unavailable." } := by
    decide +kernel
  rw [hunavailable] at hanswer
  cases hanswer
  have hprefix : cText "Known position: x=" <+: cText "Known position unavailable." := by
    have hlabel : cText "Known position: x=" <+: positionText shownX shownY shownZ yaw pitch := by
      simp only [positionText, List.append_assoc]
      exact List.prefix_append _ _
    rwa [← hchat] at hlabel
  exact absurd hprefix (by decide +kernel)

end StarrySky.Core
