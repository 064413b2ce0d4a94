import StarrySky.Bridge.C2mFilter
import StarrySky.Core.Framing

/-! The VarInt codec of the server and the reader of the bridge: round trip, shortest encodings,
what is refused, and that both read the same number. -/

namespace StarrySky.System
open StarrySky.Base StarrySky.Bridge StarrySky.Core

/-! The encoder. -/

theorem mcVarintEncodeLoop_low {v : UInt32} {room : ℕ} {bytes : List UInt8}
    (h : mcVarintEncodeLoop v room = some bytes) :
    bytes.length = 1 ∨ 128 ^ (bytes.length - 1) ≤ v.toNat := by
  -- A last group that is zero is not written.
  induction room generalizing v bytes with
  | zero => contradiction
  | succ room ih =>
    rw [mcVarintEncodeLoop] at h
    split_ifs at h with hmore
    · obtain ⟨rest, hrest, rfl⟩ := Option.map_eq_some_iff.mp h
      right
      have hnext := toNat_shiftRight_seven v
      have hpos : (v >>> 7).toNat ≠ 0 := fun hzero => hmore (UInt32.toNat_inj.mp hzero)
      rw [List.length_cons, Nat.add_sub_cancel]
      rcases ih hrest with hone | hlow
      · rw [hone, pow_one]
        omega
      · have hlength : rest.length ≠ 0 := by
          intro hzero
          have hnil : rest = [] := List.length_eq_zero_iff.mp hzero
          rw [hnil] at hrest
          cases room with
          | zero => simp [mcVarintEncodeLoop] at hrest
          | succ room =>
            rw [mcVarintEncodeLoop] at hrest
            split_ifs at hrest <;> simp at hrest
        obtain ⟨n, hn⟩ := Nat.exists_eq_succ_of_ne_zero hlength
        rw [hn, Nat.succ_eq_add_one, Nat.add_sub_cancel] at hlow
        rw [hn, pow_succ]
        omega
    · left
      cases h
      rfl

theorem mcVarintEncodeLoop_room {v : UInt32} {room : ℕ} {bytes : List UInt8}
    (h : mcVarintEncodeLoop v room = some bytes) (dstCap : ℕ) :
    mcVarintEncodeLoop v dstCap = if bytes.length ≤ dstCap then some bytes else none := by
  induction room generalizing v bytes dstCap with
  | zero => contradiction
  | succ room ih =>
    rw [mcVarintEncodeLoop] at h
    cases dstCap with
    | zero =>
      rw [mcVarintEncodeLoop, if_neg]
      split_ifs at h
      · obtain ⟨rest, _, rfl⟩ := Option.map_eq_some_iff.mp h
        simp
      · cases h
        simp
    | succ dstCap =>
      rw [mcVarintEncodeLoop]
      by_cases hmore : v >>> 7 ≠ 0
      · rw [if_pos hmore] at h ⊢
        obtain ⟨rest, hrest, rfl⟩ := Option.map_eq_some_iff.mp h
        rw [ih hrest dstCap, List.length_cons]
        by_cases hle : rest.length ≤ dstCap
        · rw [if_pos hle, if_pos (Nat.succ_le_succ hle), Option.map_some]
        · rw [if_neg hle, if_neg (fun hle' => hle (Nat.le_of_succ_le_succ hle')), Option.map_none]
      · rw [if_neg hmore] at h ⊢
        cases h
        exact (if_pos (Nat.succ_le_succ (Nat.zero_le dstCap))).symm

theorem mcVarintEncode_room (value : Int32) (dstCap : ℕ) :
    mcVarintEncode value dstCap =
      if (varintBytes value).length ≤ dstCap then some (varintBytes value) else none :=
  mcVarintEncodeLoop_room (mcVarintEncode_eq value) dstCap

theorem ofNat_toUInt32 (value : Int32) : Int32.ofNat value.toUInt32.toNat = value := by
  rw [← toInt32_eq_ofNat]
  exact Int32.toInt32_toUInt32 value

theorem mcVarintDecode_varintBytes (value : Int32) (suffix : List UInt8) :
    mcVarintDecode (varintBytes value ++ suffix) = some (value, (varintBytes value).length) := by
  rw [mcVarintDecode_of_isVarint (isVarint_varintBytes value) (length_varintBytes_le value),
    if_pos (UInt32.toNat_lt _), ofNat_toUInt32]

/-! The decoder. -/

theorem mcVarintDecode_cases (src : List UInt8) :
    ((∀ byte ∈ src.take 5, 128 ≤ byte.toNat) ∧ mcVarintDecode src = none) ∨
      ∃ encoding rest value, src = encoding ++ rest ∧ encoding.length ≤ 5 ∧
        IsVarint encoding value ∧
        mcVarintDecode src =
          if value < 2 ^ 32 then some (Int32.ofNat value, encoding.length) else none := by
  by_cases hmore : ∀ byte ∈ src.take 5, 128 ≤ byte.toNat
  · refine .inl ⟨hmore, ?_⟩
    have hnone := mcVarintDecode_of_all_more hmore
    rcases Nat.lt_or_ge src.length 5 with hshort | hlong
    · rwa [List.take_of_length_le hshort.le] at hnone
    · have hfive : 5 ≤ (src.take 5).length := by
        rw [List.length_take]
        exact le_min (Nat.le_refl 5) hlong
      have happend := mcVarintDecode_none_append hnone hfive (src.drop 5)
      rwa [List.take_append_drop] at happend
  · right
    simp only [not_forall, Nat.not_le, exists_prop] at hmore
    obtain ⟨encoding, rest, value, htake, hencoding⟩ := exists_isVarint hmore
    have hlength : encoding.length ≤ 5 := by
      have hfive := List.length_take_le 5 src
      rw [htake, List.length_append] at hfive
      exact (Nat.le_add_right _ _).trans hfive
    have hsrc : src = encoding ++ (rest ++ src.drop 5) := by
      rw [← List.append_assoc, ← htake, List.take_append_drop]
    refine ⟨encoding, rest ++ src.drop 5, value, hsrc, hlength, hencoding, ?_⟩
    rw [hsrc]
    exact mcVarintDecode_of_isVarint hencoding hlength _

theorem mcVarintDecode_eq_none_iff (src : List UInt8) :
    mcVarintDecode src = none ↔
      (∀ byte ∈ src.take 5, 128 ≤ byte.toNat) ∨
        ∃ value, IsVarint (src.take 5) value ∧ (src.take 5).length = 5 ∧ 2 ^ 32 ≤ value := by
  rcases mcVarintDecode_cases src with ⟨hmore, hnone⟩ | ⟨encoding, rest, value, hsrc, hlength, hencoding, hdecode⟩
  · exact ⟨fun _ => .inl hmore, fun _ => hnone⟩
  constructor
  · intro hnone
    rw [hdecode] at hnone
    have hlarge : 2 ^ 32 ≤ value := by
      by_contra hfits
      rw [if_pos (Nat.lt_of_not_le hfits)] at hnone
      contradiction
    -- four bytes hold 28 bits
    have hfive : encoding.length = 5 := by
      have hvalue := hencoding.value_lt
      by_contra hne
      have hpow : 128 ^ encoding.length ≤ 128 ^ 4 := Nat.pow_le_pow_right (by decide) (by omega)
      omega
    have htake : src.take 5 = encoding := by
      rw [hsrc, ← hfive, List.take_left]
    exact .inr ⟨value, htake ▸ hencoding, htake ▸ hfive, hlarge⟩
  · rintro (hmore | ⟨large, hlarge, hfive, hge⟩)
    · have hwhole : src.take 5 = encoding ++ rest.take (5 - encoding.length) := by
        rw [hsrc, List.take_append, List.take_of_length_le hlength]
      have hall : ∀ byte ∈ encoding, 128 ≤ byte.toNat := by
        intro byte hbyte
        exact hmore byte (hwhole ▸ List.mem_append_left _ hbyte)
      rw [hsrc, mcVarintDecode_of_isVarint hencoding hlength]
      have hread := mcVarintDecode_of_all_more hall
      have hself := mcVarintDecode_of_isVarint hencoding hlength []
      rw [List.append_nil, hread] at hself
      exact hself.symm
    · have hread := mcVarintDecode_of_isVarint hlarge hfive.le (src.drop 5)
      rw [List.take_append_drop, if_neg (Nat.not_lt.mpr hge)] at hread
      exact hread

theorem readMinecraftVarint_of_mcVarintDecode {src : List UInt8} {value : Int32} {used : ℕ}
    (h : mcVarintDecode src = some (value, used)) :
    readMinecraftVarint src = .complete value.toUInt32.toNat used := by
  rcases mcVarintDecode_cases src with ⟨_, hnone⟩ | ⟨encoding, rest, number, hsrc, hlength, hencoding, hdecode⟩
  · rw [hnone] at h
    contradiction
  · rw [hdecode] at h
    split_ifs at h with hfits
    cases h
    have hvalue : (Int32.ofNat number).toUInt32.toNat = number := by
      rw [Int32.toUInt32_ofNat']
      exact UInt32.toNat_ofNat_of_lt' hfits
    rw [hvalue, hsrc]
    exact readMinecraftVarint_of_isVarint hencoding hlength rest

theorem length_varintBytes_le_used {src : List UInt8} {value : Int32} {used : ℕ}
    (h : mcVarintDecode src = some (value, used)) : (varintBytes value).length ≤ used := by
  rcases mcVarintDecode_cases src with ⟨_, hnone⟩ | ⟨encoding, rest, number, _, _, hencoding, hdecode⟩
  · rw [hnone] at h
    contradiction
  · rw [hdecode] at h
    split_ifs at h with hfits
    cases h
    have hlow := mcVarintEncodeLoop_low (mcVarintEncode_eq (Int32.ofNat number))
    have hvalue : (Int32.ofNat number).toUInt32.toNat = number := by
      rw [Int32.toUInt32_ofNat']
      exact UInt32.toNat_ofNat_of_lt' hfits
    have hhigh := hencoding.value_lt
    have hpos := hencoding.length_pos
    rw [hvalue] at hlow
    rcases hlow with hone | hlow
    · omega
    · have hlt := (Nat.pow_lt_pow_iff_right (by decide : 1 < 128)).mp (hlow.trans_lt hhigh)
      omega

/-- The codec as a whole. -/
theorem mcVarint_codec :
    (∀ value : Int32, ∃ bytes : List UInt8,
      (∀ dstCap, mcVarintEncode value dstCap = if bytes.length ≤ dstCap then some bytes else none) ∧
      1 ≤ bytes.length ∧ bytes.length ≤ 5 ∧
      (∀ suffix, mcVarintDecode (bytes ++ suffix) = some (value, bytes.length)) ∧
      ∀ src used, mcVarintDecode src = some (value, used) → bytes.length ≤ used) ∧
    (∀ src : List UInt8, mcVarintDecode src = none ↔
      (∀ byte ∈ src.take 5, byte &&& 0x80 ≠ 0) ∨
        ∃ value, IsVarint (src.take 5) value ∧ (src.take 5).length = 5 ∧ 2 ^ 32 ≤ value) ∧
    ∀ (src : List UInt8) (value : Int32) (used : ℕ), mcVarintDecode src = some (value, used) →
      readMinecraftVarint src = .complete value.toUInt32.toNat used := by
  refine ⟨fun value => ⟨varintBytes value, mcVarintEncode_room value,
    (isVarint_varintBytes value).length_pos, length_varintBytes_le value,
    mcVarintDecode_varintBytes value, fun _ _ => length_varintBytes_le_used⟩, fun src => ?_,
    fun _ _ _ => readMinecraftVarint_of_mcVarintDecode⟩
  have htop : ∀ byte : UInt8, byte &&& 0x80 ≠ 0 ↔ 128 ≤ byte.toNat := by
    intro byte
    rw [ne_eq, and_80_eq_zero, Nat.not_lt]
  simp only [htop]
  exact mcVarintDecode_eq_none_iff src

end StarrySky.System
