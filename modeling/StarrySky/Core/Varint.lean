import StarrySky.Base.Varint

/-! The VarInt codec of `core/src/mc_varint.c`. -/

namespace StarrySky.Core
open StarrySky.Base

/-- The loop of `mc_varint_encode` with the bytes of `dst` that are left. -/
def mcVarintEncodeLoop (v : UInt32) : ℕ → Option (List UInt8)
  | 0 => none
  | room + 1 =>
    let byte := (v &&& 0x7f).toUInt8
    let v := v >>> 7
    if v ≠ 0 then (mcVarintEncodeLoop v room).map ((byte ||| 0x80) :: ·) else some [byte]

def mcVarintEncode (value : Int32) (dstCap : ℕ) : Option (List UInt8) :=
  mcVarintEncodeLoop value.toUInt32 dstCap

/-- The loop of `mc_varint_decode`: the value so far, and the index of the next byte. -/
def mcVarintDecodeLoop (result : UInt32) (i : ℕ) : List UInt8 → Option (Int32 × ℕ)
  | [] => none
  | byte :: src =>
    if i < 5 then
      let result := result ||| ((byte &&& 0x7f).toUInt32 <<< UInt32.ofNat (7 * i))
      if byte &&& 0x80 = 0 then
        if i = 4 ∧ byte &&& 0x70 ≠ 0 then none else some (result.toInt32, i + 1)
      else mcVarintDecodeLoop result (i + 1) src
    else none

/-- The value at the start of `src`, and the number of bytes it takes. -/
def mcVarintDecode (src : List UInt8) : Option (Int32 × ℕ) := mcVarintDecodeLoop 0 0 src

theorem toNat_shiftRight_seven (v : UInt32) : (v >>> 7).toNat = v.toNat / 128 := by
  rw [UInt32.toNat_shiftRight]
  exact Nat.shiftRight_eq_div_pow _ _

theorem toNat_low (v : UInt32) : (v &&& 0x7f).toUInt8.toNat = v.toNat % 128 := by
  have hmask : (0x7f : UInt32).toNat = 2 ^ 7 - 1 := rfl
  rw [UInt32.toNat_toUInt8, UInt32.toNat_and, hmask, Nat.and_two_pow_sub_one_eq_mod]
  exact Nat.mod_eq_of_lt (lt_trans (Nat.mod_lt _ (by decide)) (by decide))

theorem toNat_or_top {byte : UInt8} (h : byte.toNat < 128) :
    (byte ||| 0x80).toNat = byte.toNat + 128 := by
  have htop : (0x80 : UInt8).toNat = 2 ^ 7 * 1 := rfl
  rw [UInt8.toNat_or, htop, Nat.or_comm, ← Nat.two_pow_add_eq_or_of_lt h, Nat.add_comm]

theorem mcVarintEncodeLoop_isVarint (room : ℕ) (v : UInt32) (h : v.toNat < 128 ^ (room + 1)) :
    ∃ bytes, mcVarintEncodeLoop v (room + 1) = some bytes ∧ IsVarint bytes v.toNat ∧
      bytes.length ≤ room + 1 := by
  -- With a byte for each seven bits, the loop writes the value.
  induction room generalizing v with
  | zero =>
    have hzero : v >>> 7 = 0 := by
      apply UInt32.toNat_inj.mp
      rw [toNat_shiftRight_seven]
      exact Nat.div_eq_of_lt h
    have hbyte : (v &&& 0x7f).toUInt8.toNat = v.toNat :=
      (toNat_low v).trans (Nat.mod_eq_of_lt h)
    refine ⟨[(v &&& 0x7f).toUInt8], ?_, ?_, Nat.le_refl 1⟩
    · simp [mcVarintEncodeLoop, hzero]
    · rw [← hbyte]
      apply IsVarint.last
      rw [hbyte]
      exact h
  | succ room ih =>
    have hbyte : (v &&& 0x7f).toUInt8.toNat < 128 := by
      rw [toNat_low]
      exact Nat.mod_lt _ (by decide)
    by_cases hzero : v >>> 7 = 0
    · have hsmall : v.toNat < 128 := by
        have := toNat_shiftRight_seven v
        rw [hzero] at this
        exact (Nat.div_eq_zero_iff_lt (by decide)).mp this.symm
      refine ⟨[(v &&& 0x7f).toUInt8], by simp [mcVarintEncodeLoop, hzero], ?_, by simp⟩
      have hvalue : (v &&& 0x7f).toUInt8.toNat = v.toNat :=
        (toNat_low v).trans (Nat.mod_eq_of_lt hsmall)
      rw [← hvalue]
      exact IsVarint.last _ hbyte
    · have hrest : (v >>> 7).toNat < 128 ^ (room + 1) := by
        rw [toNat_shiftRight_seven, Nat.div_lt_iff_lt_mul (by decide)]
        exact h
      obtain ⟨bytes, hbytes, hvarint, hlen⟩ := ih (v >>> 7) hrest
      have htop := toNat_or_top hbyte
      refine ⟨((v &&& 0x7f).toUInt8 ||| 0x80) :: bytes, ?_, ?_, by simpa using hlen⟩
      · rw [mcVarintEncodeLoop]
        simp only [ne_eq, hzero, not_false_eq_true, if_true, hbytes, Option.map_some]
      · have hmore := IsVarint.more ((v &&& 0x7f).toUInt8 ||| 0x80) (by omega) hvarint
        have hvalue : ((v &&& 0x7f).toUInt8 ||| 0x80).toNat - 128 + 128 * (v >>> 7).toNat =
            v.toNat := by
          rw [htop, toNat_low, toNat_shiftRight_seven]
          omega
        rwa [hvalue] at hmore

theorem mcVarintEncode_isVarint (value : Int32) :
    ∃ bytes, mcVarintEncode value 5 = some bytes ∧ IsVarint bytes value.toUInt32.toNat ∧
      bytes.length ≤ 5 := by
  apply mcVarintEncodeLoop_isVarint 4
  exact lt_trans (UInt32.toNat_lt _) (by decide)

/-- The value's bytes; `mc_varint_encode` is only called with room for them. -/
def varintBytes (value : Int32) : List UInt8 := (mcVarintEncode value 5).getD []

theorem mcVarintEncode_eq (value : Int32) : mcVarintEncode value 5 = some (varintBytes value) := by
  obtain ⟨bytes, hbytes, _⟩ := mcVarintEncode_isVarint value
  rw [varintBytes, hbytes, Option.getD_some]

theorem isVarint_varintBytes (value : Int32) :
    IsVarint (varintBytes value) value.toUInt32.toNat := by
  obtain ⟨bytes, hbytes, hvarint, _⟩ := mcVarintEncode_isVarint value
  rwa [varintBytes, hbytes, Option.getD_some]

theorem length_varintBytes_le (value : Int32) : (varintBytes value).length ≤ 5 := by
  obtain ⟨bytes, hbytes, _, hlen⟩ := mcVarintEncode_isVarint value
  rwa [varintBytes, hbytes, Option.getD_some]

theorem toNat_ofNat_of_lt {n : ℕ} (h : n < 2 ^ 31) : (Int32.ofNat n).toUInt32.toNat = n := by
  rw [Int32.toUInt32_ofNat']
  exact UInt32.toNat_ofNat_of_lt' (lt_trans h (by decide))

theorem isVarint_ofNat {n : ℕ} (h : n < 2 ^ 31) : IsVarint (varintBytes (Int32.ofNat n)) n := by
  have hvarint := isVarint_varintBytes (Int32.ofNat n)
  rwa [toNat_ofNat_of_lt h] at hvarint

end StarrySky.Core
