import StarrySky.Core.Server

/-! Frames in the server's accumulator: what `classify_frame`, `mc_packet_try_read` and
`partial_frame_has_invalid_packet_id` read off a frame and off a part of one. -/

namespace StarrySky.Core
open StarrySky.Base

abbrev varintMaxBytes : ℕ := 5

theorem and_70_eq_zero {byte : UInt8} (h : byte.toNat < 128) :
    byte &&& 0x70 = 0 ↔ byte.toNat < 16 := by
  have h' : ∀ n : Fin 128, (UInt8.ofNat n.val &&& 0x70 = 0) ↔ n.val < 16 := by decide +kernel
  have := h' ⟨byte.toNat, h⟩
  simpa using this

theorem toNat_decodeGroup {result : UInt32} {i : ℕ} (hi : i < 5) (hresult : result.toNat < 2 ^ (7 * i))
    (byte : UInt8) (hfits : byte.toNat % 128 * 2 ^ (7 * i) < 2 ^ 32) :
    (result ||| ((byte &&& 0x7f).toUInt32 <<< UInt32.ofNat (7 * i))).toNat =
      result.toNat + 2 ^ (7 * i) * (byte.toNat % 128) := by
  have hgroup : (byte &&& 0x7f).toUInt32.toNat = byte.toNat % 128 := by
    rw [UInt8.toNat_toUInt32, and_7f_toNat]
  have hshift : (UInt32.ofNat (7 * i)).toNat = 7 * i :=
    UInt32.toNat_ofNat_of_lt' (lt_of_lt_of_le (Nat.mul_lt_mul_of_pos_left hi (by decide)) (by decide))
  have hmod : 7 * i % 32 = 7 * i := Nat.mod_eq_of_lt (by omega)
  rw [UInt32.toNat_or, UInt32.toNat_shiftLeft, hgroup, hshift, hmod, Nat.shiftLeft_eq,
    Nat.mod_eq_of_lt hfits, Nat.mul_comm, Nat.or_comm]
  rw [← Nat.two_pow_add_eq_or_of_lt hresult, Nat.add_comm]

theorem toInt32_eq_ofNat (x : UInt32) : x.toInt32 = Int32.ofNat x.toNat := by
  show x.toInt32 = (UInt32.ofNat x.toNat).toInt32
  rw [UInt32.ofNat_toNat]

theorem mcVarintDecodeLoop_of_isVarint {bytes : List UInt8} {v : ℕ} (h : IsVarint bytes v)
    (rest : List UInt8) {result : UInt32} {i : ℕ} (hlen : i + bytes.length ≤ 5)
    (hresult : result.toNat < 2 ^ (7 * i)) :
    mcVarintDecodeLoop result i (bytes ++ rest) =
      if result.toNat + 2 ^ (7 * i) * v < 2 ^ 32 then
        some (Int32.ofNat (result.toNat + 2 ^ (7 * i) * v), i + bytes.length)
      else none := by
  induction h generalizing result i with
  | last byte hlt =>
    have hi : i < 5 := hlen
    have hmod : byte.toNat % 128 = byte.toNat := Nat.mod_eq_of_lt hlt
    have htop := (and_80_eq_zero byte).mpr hlt
    rw [List.singleton_append, mcVarintDecodeLoop, if_pos hi]
    dsimp only
    rw [if_pos htop]
    -- the fifth byte has room for four bits
    by_cases hover : i = 4 ∧ byte &&& 0x70 ≠ 0
    · have hbyte : 16 ≤ byte.toNat := Nat.le_of_not_lt fun h => hover.2 ((and_70_eq_zero hlt).mpr h)
      rw [if_pos hover, if_neg]
      rw [hover.1]
      omega
    · have hsum : result.toNat + 2 ^ (7 * i) * byte.toNat < 2 ^ 32 := by
        by_cases hfour : i = 4
        · have hbyte : byte.toNat < 16 := by
            apply (and_70_eq_zero hlt).mp
            by_contra hne
            exact hover ⟨hfour, hne⟩
          rw [hfour] at hresult ⊢
          omega
        · have hpow : 2 ^ (7 * i) ≤ 2 ^ 21 := Nat.pow_le_pow_right (by decide) (by omega)
          have hmul : 2 ^ (7 * i) * byte.toNat ≤ 2 ^ 21 * 127 :=
            Nat.mul_le_mul hpow (by omega)
          omega
      have hfits : byte.toNat % 128 * 2 ^ (7 * i) < 2 ^ 32 := by
        rw [hmod, Nat.mul_comm]
        exact lt_of_le_of_lt (Nat.le_add_left _ _) hsum
      rw [if_neg hover, if_pos hsum, toInt32_eq_ofNat, toNat_decodeGroup hi hresult byte hfits, hmod]
      rfl
  | @more byte hge bytes value hbytes ih =>
    have hpos := hbytes.length_pos
    rw [List.length_cons] at hlen ⊢
    have hi : i < 5 := by omega
    have hlt := byte.toNat_lt
    have hmod : byte.toNat % 128 = byte.toNat - 128 := by omega
    have hpow : 2 ^ (7 * i) ≤ 2 ^ 21 := Nat.pow_le_pow_right (by decide) (by omega)
    have hnext : 2 ^ (7 * (i + 1)) = 128 * 2 ^ (7 * i) := by
      rw [Nat.mul_add, Nat.pow_add, Nat.mul_comm]
    have hgroup : 2 ^ (7 * i) * (byte.toNat % 128) ≤ 2 ^ (7 * i) * 127 :=
      Nat.mul_le_mul_left _ (by omega)
    have hfits : byte.toNat % 128 * 2 ^ (7 * i) < 2 ^ 32 := by
      rw [Nat.mul_comm]
      omega
    have hresult' := toNat_decodeGroup hi hresult byte hfits
    have hsum : result.toNat + 2 ^ (7 * i) * (byte.toNat % 128) + 2 ^ (7 * (i + 1)) * value =
        result.toNat + 2 ^ (7 * i) * (byte.toNat - 128 + 128 * value) := by
      rw [hmod, hnext, Nat.mul_add, Nat.add_assoc, Nat.mul_comm 128, Nat.mul_assoc]
    have hloop := @ih (result ||| ((byte &&& 0x7f).toUInt32 <<< UInt32.ofNat (7 * i))) (i + 1)
      (by omega) (by rw [hresult', hnext]; omega)
    rw [hresult', hsum, Nat.add_assoc i 1, Nat.add_comm 1] at hloop
    rw [List.cons_append, mcVarintDecodeLoop, if_pos hi]
    dsimp only
    rw [if_neg fun htop => absurd ((and_80_eq_zero byte).mp htop) (Nat.not_lt.mpr hge)]
    exact hloop

theorem mcVarintDecode_of_isVarint {bytes : List UInt8} {v : ℕ} (h : IsVarint bytes v)
    (hlen : bytes.length ≤ varintMaxBytes) (rest : List UInt8) :
    mcVarintDecode (bytes ++ rest) =
      if v < 2 ^ 32 then some (Int32.ofNat v, bytes.length) else none := by
  have hloop := @mcVarintDecodeLoop_of_isVarint bytes v h rest 0 0
    (by rw [Nat.zero_add]; exact hlen) (by decide)
  rw [mcVarintDecode, hloop]
  simp only [UInt32.toNat_zero, Nat.mul_zero, Nat.pow_zero, Nat.one_mul, Nat.zero_add]

theorem mcVarintDecode_of_all_more {bytes : List UInt8} (h : ∀ byte ∈ bytes, 128 ≤ byte.toNat) :
    mcVarintDecode bytes = none := by
  have hloop : ∀ (result : UInt32) (i : ℕ), mcVarintDecodeLoop result i bytes = none := by
    induction bytes with
    | nil => exact fun _ _ => rfl
    | cons byte bytes ih =>
      intro result i
      have hbyte := h byte List.mem_cons_self
      rw [mcVarintDecodeLoop]
      dsimp only
      rw [if_neg fun htop => absurd ((and_80_eq_zero byte).mp htop) (Nat.not_lt.mpr hbyte),
        ih fun b hb => h b (List.mem_cons_of_mem _ hb)]
      exact ite_self _
  exact hloop 0 0

theorem ofNat_nonneg {v : ℕ} (h : v < 2 ^ 31) : ¬ Int32.ofNat v < 0 := by
  rw [Int32.lt_iff_toInt_lt, Int32.toInt_ofNat_of_lt h, Int32.toInt_zero]
  exact Int.not_lt.mpr (Int.natCast_nonneg v)

theorem ofNat_neg {v : ℕ} (hlow : 2 ^ 31 ≤ v) (hhigh : v < 2 ^ 32) : Int32.ofNat v < 0 := by
  have hsize : Int32.size = 4294967296 := rfl
  rw [Int32.lt_iff_toInt_lt, Int32.toInt_ofNat', Int32.toInt_zero, hsize, Int.bmod_def,
    Int.emod_eq_of_lt (by omega) (by omega), if_neg (by omega)]
  omega

theorem bodyLen_invalid_iff {v : ℕ} (h : v < 2 ^ 32) :
    (Int32.ofNat v < 0 ∨ (Int32.ofNat v).toNatClampNeg > mcMaxPacketBody) ↔
      mcMaxPacketBody < v := by
  by_cases hsmall : v < 2 ^ 31
  · rw [Int32.toNatClampNeg_ofNat_of_lt hsmall]
    exact or_iff_right (ofNat_nonneg hsmall)
  · have hlow := Nat.le_of_not_lt hsmall
    exact iff_of_true (.inl (ofNat_neg hlow h)) (lt_of_lt_of_le (by decide) hlow)

theorem findIdx_isVarint {bytes : List UInt8} {v : ℕ} (h : IsVarint bytes v) (rest : List UInt8) :
    (bytes ++ rest).findIdx? (fun byte => byte &&& 0x80 = 0) = some (bytes.length - 1) := by
  induction h with
  | last byte hlt =>
    rw [List.singleton_append, List.findIdx?_cons, if_pos (by simpa using (and_80_eq_zero byte).mpr hlt)]
    rfl
  | @more byte hge bytes value hbytes ih =>
    have hpos := hbytes.length_pos
    have htop : ¬ byte &&& 0x80 = 0 :=
      fun htop => absurd ((and_80_eq_zero byte).mp htop) (Nat.not_lt.mpr hge)
    rw [List.cons_append, List.findIdx?_cons, if_neg (by simpa using htop), ih, Option.map_some,
      List.length_cons]
    congr 1
    omega

theorem classifyFrame_of_isVarint {bytes : List UInt8} {v : ℕ} (h : IsVarint bytes v)
    (hlen : bytes.length ≤ varintMaxBytes) (rest : List UInt8) :
    classifyFrame (bytes ++ rest) =
      if mcMaxPacketBody < v then .invalid
      else if v ≤ rest.length then .ready (bytes.length + v) else .needMore := by
  have hpos := h.length_pos
  have htake : (bytes ++ rest).take 5 = bytes ++ rest.take (5 - bytes.length) := by
    rw [List.take_append, List.take_of_length_le hlen]
  have hone : (bytes ++ rest).take (bytes.length - 1 + 1) = bytes ++ [] := by
    rw [Nat.sub_add_cancel hpos, List.take_left, List.append_nil]
  rw [classifyFrame, htake, findIdx_isVarint h]
  dsimp only
  rw [hone, mcVarintDecode_of_isVarint h hlen]
  by_cases hfits : v < 2 ^ 32
  · rw [if_pos hfits]
    dsimp only
    by_cases hbody : mcMaxPacketBody < v
    · rw [if_pos ((bodyLen_invalid_iff hfits).mpr hbody), if_pos hbody]
    · have hsmall : v < 2 ^ 31 := lt_of_le_of_lt (Nat.le_of_not_lt hbody) (by decide)
      rw [if_neg (mt (bodyLen_invalid_iff hfits).mp hbody), if_neg hbody,
        Int32.toNatClampNeg_ofNat_of_lt hsmall, List.length_append]
      by_cases hwhole : v ≤ rest.length
      · rw [if_pos hwhole, if_pos (Nat.add_le_add_left hwhole _)]
      · rw [if_neg hwhole, if_neg fun hle => hwhole (Nat.le_of_add_le_add_left hle)]
  · have hlong : mcMaxPacketBody < v := lt_of_lt_of_le (by decide) (Nat.le_of_not_lt hfits)
    rw [if_neg hfits, if_pos hlong]

theorem classifyFrame_of_all_more {bytes : List UInt8} (h : ∀ byte ∈ bytes, 128 ≤ byte.toNat) :
    classifyFrame bytes = if bytes.length ≥ 5 then .invalid else .needMore := by
  have hnone : (bytes.take 5).findIdx? (fun byte => byte &&& 0x80 = 0) = none := by
    rw [List.findIdx?_eq_none_iff]
    intro byte hbyte
    have hge := h byte (List.mem_of_mem_take hbyte)
    simpa using fun htop => absurd ((and_80_eq_zero byte).mp htop) (Nat.not_lt.mpr hge)
  rw [classifyFrame, hnone]

theorem mcPacketTryRead_of_isVarint {bytes : List UInt8} {v : ℕ} (h : IsVarint bytes v)
    (hlen : bytes.length ≤ varintMaxBytes) (hbody : v ≤ mcMaxPacketBody) (rest : List UInt8) :
    mcPacketTryRead (bytes ++ rest) =
      if v ≤ rest.length then some { body := rest.take v, frameLen := bytes.length + v }
      else none := by
  have hfits : v < 2 ^ 32 := lt_of_le_of_lt hbody (by decide)
  have hsmall : v < 2 ^ 31 := lt_of_le_of_lt hbody (by decide)
  rw [mcPacketTryRead, mcVarintDecode_of_isVarint h hlen, if_pos hfits]
  dsimp only
  rw [if_neg (mt (bodyLen_invalid_iff hfits).mp (Nat.not_lt.mpr hbody)),
    Int32.toNatClampNeg_ofNat_of_lt hsmall, List.drop_left, List.length_append]
  by_cases hwhole : v ≤ rest.length
  · rw [if_pos hwhole, if_neg (Nat.not_lt.mpr (Nat.add_le_add_left hwhole _))]
  · rw [if_neg hwhole, if_pos (Nat.add_lt_add_left (Nat.lt_of_not_le hwhole) _)]

theorem mcPacketTryRead_of_all_more {bytes : List UInt8}
    (h : ∀ byte ∈ bytes, 128 ≤ byte.toNat) : mcPacketTryRead bytes = none := by
  rw [mcPacketTryRead, mcVarintDecode_of_all_more h]

theorem mcVarintDecodeLoop_append {result : UInt32} {i : ℕ} {src : List UInt8} {value : Int32}
    {used : ℕ} (h : mcVarintDecodeLoop result i src = some (value, used)) (more : List UInt8) :
    mcVarintDecodeLoop result i (src ++ more) = some (value, used) ∧ used ≤ i + src.length := by
  induction src generalizing result i with
  | nil => simp [mcVarintDecodeLoop] at h
  | cons byte src ih =>
    rw [mcVarintDecodeLoop] at h
    rw [List.cons_append, mcVarintDecodeLoop, List.length_cons]
    split_ifs at h ⊢
    · have hused := congrArg Prod.snd (Option.some.inj h)
      dsimp only at hused
      exact ⟨h, by omega⟩
    · obtain ⟨hloop, hused⟩ := ih h
      exact ⟨hloop, by omega⟩

theorem mcVarintDecodeLoop_none_append {result : UInt32} {i : ℕ} {src : List UInt8}
    (h : mcVarintDecodeLoop result i src = none) (hlen : 5 ≤ i + src.length)
    (more : List UInt8) : mcVarintDecodeLoop result i (src ++ more) = none := by
  induction src generalizing result i with
  | nil =>
    cases more with
    | nil => rfl
    | cons byte more =>
      rw [List.nil_append, mcVarintDecodeLoop]
      exact if_neg (Nat.not_lt.mpr hlen)
  | cons byte src ih =>
    rw [mcVarintDecodeLoop] at h
    rw [List.cons_append, mcVarintDecodeLoop]
    rw [List.length_cons] at hlen
    split_ifs at h ⊢
    · rfl
    · exact ih h (by omega)
    · rfl

theorem mcVarintDecodeLoop_of_append {result : UInt32} {i : ℕ} {src more : List UInt8}
    {value : Int32} {used : ℕ}
    (h : mcVarintDecodeLoop result i (src ++ more) = some (value, used))
    (hused : used ≤ i + src.length) : mcVarintDecodeLoop result i src = some (value, used) := by
  induction src generalizing result i with
  | nil =>
    have hpos := used_pos_of_mcVarintDecodeLoop h
    rw [List.length_nil] at hused
    omega
  | cons byte src ih =>
    rw [List.cons_append, mcVarintDecodeLoop] at h
    rw [mcVarintDecodeLoop]
    rw [List.length_cons] at hused
    split_ifs at h ⊢
    · exact h
    · exact ih h (by omega)

theorem mcVarintDecode_append {src : List UInt8} {value : Int32} {used : ℕ}
    (h : mcVarintDecode src = some (value, used)) (more : List UInt8) :
    mcVarintDecode (src ++ more) = some (value, used) ∧ used ≤ src.length := by
  have hloop := mcVarintDecodeLoop_append h more
  rwa [Nat.zero_add] at hloop

theorem mcVarintDecode_none_append {src : List UInt8} (h : mcVarintDecode src = none)
    (hlen : 5 ≤ src.length) (more : List UInt8) : mcVarintDecode (src ++ more) = none :=
  mcVarintDecodeLoop_none_append h (hlen.trans (Nat.le_add_left _ _)) more

theorem mcVarintDecode_of_append {src more : List UInt8} {value : Int32} {used : ℕ}
    (h : mcVarintDecode (src ++ more) = some (value, used)) (hused : used ≤ src.length) :
    mcVarintDecode src = some (value, used) :=
  mcVarintDecodeLoop_of_append h (hused.trans (Nat.le_add_left _ _))

/-- A frame of the client's stream: its length in any encoding of at most five bytes, and its
body. -/
structure InboundFrame where
  lengthBytes : List UInt8
  body : List UInt8
  isVarint : IsVarint lengthBytes body.length
  length_lengthBytes_le : lengthBytes.length ≤ varintMaxBytes

def InboundFrame.bytes (frame : InboundFrame) : List UInt8 := frame.lengthBytes ++ frame.body

theorem InboundFrame.length_bytes (frame : InboundFrame) :
    frame.bytes.length = frame.lengthBytes.length + frame.body.length := List.length_append

theorem InboundFrame.bytes_ne_nil (frame : InboundFrame) : frame.bytes ≠ [] := by
  apply List.ne_nil_of_length_pos
  rw [frame.length_bytes]
  exact Nat.add_pos_left frame.isVarint.length_pos _

theorem InboundFrame.part_cases {frame : InboundFrame} {part : List UInt8}
    (hpre : part <+: frame.bytes) (hne : part ≠ frame.bytes) :
    (∀ byte ∈ part, 128 ≤ byte.toNat) ∧ part.length < varintMaxBytes ∨
      ∃ bodyPart, part = frame.lengthBytes ++ bodyPart ∧ bodyPart <+: frame.body ∧
        bodyPart ≠ frame.body := by
  by_cases hshort : part.length < frame.lengthBytes.length
  · have hpart : part <+: frame.lengthBytes :=
      List.prefix_of_prefix_length_le hpre (List.prefix_append _ _) (Nat.le_of_lt hshort)
    refine .inl ⟨frame.isVarint.all_more hpart ?_,
      lt_of_lt_of_le hshort frame.length_lengthBytes_le⟩
    intro heq
    rw [heq] at hshort
    exact Nat.lt_irrefl _ hshort
  · obtain ⟨bodyPart, rfl⟩ : frame.lengthBytes <+: part :=
      List.prefix_of_prefix_length_le (List.prefix_append _ _) hpre (Nat.le_of_not_lt hshort)
    refine .inr ⟨bodyPart, rfl, (List.prefix_append_right_inj _).mp hpre, ?_⟩
    intro heq
    exact hne (by rw [heq, InboundFrame.bytes])

theorem classifyFrame_frame {frame : InboundFrame} (hbody : frame.body.length ≤ mcMaxPacketBody)
    (rest : List UInt8) :
    classifyFrame (frame.bytes ++ rest) = .ready frame.bytes.length ∧
      mcPacketTryRead (frame.bytes ++ rest) =
        some { body := frame.body, frameLen := frame.bytes.length } := by
  have hwhole : frame.body.length ≤ (frame.body ++ rest).length := by
    rw [List.length_append]
    exact Nat.le_add_right _ _
  rw [InboundFrame.bytes, List.append_assoc,
    classifyFrame_of_isVarint frame.isVarint frame.length_lengthBytes_le,
    mcPacketTryRead_of_isVarint frame.isVarint frame.length_lengthBytes_le hbody,
    if_neg (Nat.not_lt.mpr hbody), if_pos hwhole, if_pos hwhole, List.take_left,
    List.length_append]
  exact ⟨rfl, rfl⟩

theorem classifyFrame_part {frame : InboundFrame} (hbody : frame.body.length ≤ mcMaxPacketBody)
    {part : List UInt8} (hpre : part <+: frame.bytes) (hne : part ≠ frame.bytes) :
    classifyFrame part = .needMore ∧ mcPacketTryRead part = none := by
  rcases InboundFrame.part_cases hpre hne with ⟨hmore, hlen⟩ | ⟨bodyPart, rfl, hpart, hpartNe⟩
  · rw [classifyFrame_of_all_more hmore, mcPacketTryRead_of_all_more hmore,
      if_neg (Nat.not_le.mpr hlen)]
    exact ⟨rfl, rfl⟩
  · have hmissing : ¬ frame.body.length ≤ bodyPart.length :=
      fun hle => hpartNe (hpart.eq_of_length (Nat.le_antisymm hpart.length_le hle))
    rw [classifyFrame_of_isVarint frame.isVarint frame.length_lengthBytes_le,
      mcPacketTryRead_of_isVarint frame.isVarint frame.length_lengthBytes_le hbody,
      if_neg (Nat.not_lt.mpr hbody), if_neg hmissing, if_neg hmissing]
    exact ⟨rfl, rfl⟩

/-- The checks of a partial frame that its length passed. -/
def partialBodyInvalid (cfg : McConfig) (server : McServer) (body : List UInt8) : Bool :=
  if body = [] then false
  else if cfg.protocolCompressionEnable ∧ server.compressionEnabled then
    match mcVarintDecode body with
    | none => body.length ≥ 5
    | some (dataLen, used) =>
      if dataLen ≠ 0 then true
      else if body.length ≤ used then false
      else packetIdInvalid (body.drop used)
  else packetIdInvalid body

theorem partialFrameHasInvalidPacketId_body (cfg : McConfig) (server : McServer)
    {frame : InboundFrame} (hbody : frame.body.length ≤ mcMaxPacketBody) (part : List UInt8) :
    partialFrameHasInvalidPacketId cfg server (frame.lengthBytes ++ part) =
      partialBodyInvalid cfg server part := by
  have hfits : frame.body.length < 2 ^ 32 := lt_of_le_of_lt hbody (by decide)
  rw [partialFrameHasInvalidPacketId,
    mcVarintDecode_of_isVarint frame.isVarint frame.length_lengthBytes_le, if_pos hfits]
  dsimp only
  rw [if_neg (mt (bodyLen_invalid_iff hfits).mp (Nat.not_lt.mpr hbody)), partialBodyInvalid,
    List.length_append, List.drop_left]
  by_cases hnil : part = []
  · rw [if_pos hnil, if_pos]
    rw [hnil]
    exact Nat.le_refl _
  · have hpos := List.length_pos_of_ne_nil hnil
    have hmore : ¬ frame.lengthBytes.length + part.length ≤ frame.lengthBytes.length := by omega
    exact (if_neg hmore).trans (if_neg hnil).symm

theorem partialFrameHasInvalidPacketId_of_all_more (cfg : McConfig) (server : McServer)
    {part : List UInt8} (h : ∀ byte ∈ part, 128 ≤ byte.toNat) :
    partialFrameHasInvalidPacketId cfg server part = false := by
  rw [partialFrameHasInvalidPacketId, mcVarintDecode_of_all_more h]

end StarrySky.Core
