import StarrySky.Bridge.Link

/-! The bridge's codec against the firmware's: both encoders write the same bytes,
and the bridge reads back every frame they write. -/

namespace StarrySky.Bridge.Link
open StarrySky.Base StarrySky.Link

/-- The firmware's encoder in the state of the bridge's; `lastZero` says whether the
last byte was zero. -/
def CobsEncoder.toStream (st : CobsEncoder) (lastZero : Bool) (dstCap : ℕ) : CobsStreamEncoder :=
  { dst := st.encoded, dstCap := dstCap, codeIndex := st.codeIndex, code := st.code,
    blockOpen := st.blockOpen, trailingZeroPending := lastZero }

theorem cobsStreamWriteByte_toStream {st : CobsEncoder} {lastZero : Bool} {dstCap : ℕ}
    (hopen : st.blockOpen = true → lastZero = false) (hcap : st.encoded.length + 2 ≤ dstCap)
    (byte : UInt8) :
    cobsStreamWriteByte (st.toStream lastZero dstCap) byte =
      some ((cobsEncodeByte st byte).toStream (byte = 0) dstCap) := by
  have hroom : ¬ dstCap ≤ st.encoded.length := by omega
  have hroom' : ¬ dstCap ≤ st.encoded.length + 1 := by omega
  cases hblock : st.blockOpen with
  | true =>
    by_cases hbyte : byte = 0
    · simp [cobsStreamWriteByte, CobsEncoder.toStream, cobsEncodeByte, hblock, hbyte,
        CobsStreamEncoder.storeCode, CobsEncoder.storeCode]
    · by_cases hfull : st.code + 1 = 0xff
      · simp [cobsStreamWriteByte, CobsEncoder.toStream, cobsEncodeByte, hblock, hbyte, hroom,
          hfull, CobsStreamEncoder.storeCode, CobsEncoder.storeCode]
      · simp [cobsStreamWriteByte, CobsEncoder.toStream, cobsEncodeByte, hblock, hbyte, hroom,
          hfull, hopen hblock]
  | false =>
    by_cases hbyte : byte = 0
    · simp [cobsStreamWriteByte, cobsStreamOpenBlock, CobsEncoder.toStream, cobsEncodeByte,
        hblock, hbyte, hroom, CobsStreamEncoder.storeCode, CobsEncoder.storeCode]
    · simp [cobsStreamWriteByte, cobsStreamOpenBlock, CobsEncoder.toStream, cobsEncodeByte,
        hblock, hbyte, hroom, hroom']

theorem length_cobsEncodeByte_le (st : CobsEncoder) (byte : UInt8) :
    (cobsEncodeByte st byte).encoded.length ≤ st.encoded.length + 2 := by
  unfold cobsEncodeByte
  cases st.blockOpen <;> dsimp only <;> split_ifs <;> simp [CobsEncoder.storeCode]

theorem blockOpen_cobsEncodeByte {st : CobsEncoder} {byte : UInt8}
    (h : (cobsEncodeByte st byte).blockOpen = true) : byte ≠ 0 := by
  rintro rfl
  simp [cobsEncodeByte] at h

theorem cobsStreamWrite_toStream (input : List UInt8) (st : CobsEncoder) (lastZero : Bool)
    (dstCap : ℕ) (hopen : st.blockOpen = true → lastZero = false)
    (hcap : st.encoded.length + 2 * input.length ≤ dstCap) :
    cobsStreamWrite (st.toStream lastZero dstCap) input =
      some ((input.foldl cobsEncodeByte st).toStream
        (if input = [] then lastZero else input.getLast? = some 0) dstCap) := by
  induction input generalizing st lastZero with
  | nil => simp [cobsStreamWrite]
  | cons byte input ih =>
    simp only [List.length_cons] at hcap
    have hlen := length_cobsEncodeByte_le st byte
    rw [cobsStreamWrite, cobsStreamWriteByte_toStream hopen (by omega)]
    simp only [List.foldl_cons]
    rw [ih _ _ (fun h => by simpa using blockOpen_cobsEncodeByte h) (by omega)]
    cases input <;> simp

theorem cobsStreamFinish_toStream {st : CobsEncoder} (lastZero : Bool) {dstCap : ℕ}
    (hroom : st.encoded.length < dstCap) :
    cobsStreamFinish (st.toStream lastZero dstCap) = some (st.finish lastZero) := by
  obtain ⟨encoded, codeIndex, code, blockOpen⟩ := st
  cases blockOpen with
  | true => rfl
  | false =>
    by_cases hpending : encoded = [] ∨ lastZero = true
    · simp [cobsStreamFinish, CobsEncoder.toStream, CobsEncoder.finish, cobsStreamOpenBlock,
        CobsStreamEncoder.storeCode, hpending, Nat.not_le.mpr hroom]
    · simp [cobsStreamFinish, CobsEncoder.toStream, CobsEncoder.finish, hpending]

theorem length_foldl_cobsEncodeByte_le (input : List UInt8) (st : CobsEncoder) :
    (input.foldl cobsEncodeByte st).encoded.length ≤ st.encoded.length + 2 * input.length := by
  induction input generalizing st with
  | nil => simp
  | cons byte input ih =>
    have hbyte := length_cobsEncodeByte_le st byte
    have := ih (cobsEncodeByte st byte)
    simp only [List.foldl_cons, List.length_cons]
    omega

/-- The vector encoder computes the block encoding. -/
theorem cobsEncode_eq (input : List UInt8) : cobsEncode input = Cobs.encode input := by
  obtain ⟨dstCap, hcap⟩ : ∃ dstCap, dstCap = 2 * input.length + (Cobs.encode input).length + 2 :=
    ⟨_, rfl⟩
  have hwrite := cobsStreamWrite_toStream input .init false dstCap (fun _ => rfl) (by simp only [CobsEncoder.init, List.length_singleton]; omega)
  have hfinish := finishAfter_open input (CobsEncoder.init.toStream false dstCap) [] []
    ⟨rfl, rfl, rfl, rfl, Cobs.openBlock_nil⟩
    (by simp only [CobsEncoder.toStream, Cobs.encode, List.nil_append] at hcap ⊢; omega)
  have hlen : (input.foldl cobsEncodeByte .init).encoded.length ≤ 1 + 2 * input.length :=
    length_foldl_cobsEncodeByte_le input .init
  have hlast : (if input = [] then false else decide (input.getLast? = some 0)) =
      decide (input.getLast? = some 0) := by
    cases input <;> simp
  rw [finishAfter, hwrite, Option.bind_some, List.nil_append, hlast,
    cobsStreamFinish_toStream _ (by omega)] at hfinish
  exact Option.some.inj hfinish

theorem encode_eq {frameType : FrameType} (hknown : frameType.isUnknown = false)
    {payload : List UInt8} (h : payload.length ≤ maxPayload) (seq ack : UInt16) :
    encode frameType seq ack payload = some (mcLinkFrameBytes frameType.toU8 seq ack payload) := by
  have hlen := length_mcLinkFrameBytes_le h frameType.toU8 seq ack
  have hbytes : cobsEncode (([version, frameType.toU8, 0] ++ leBytes seq ++ leBytes ack ++
      leBytes (UInt16.ofNat payload.length) ++ payload) ++
      leBytes (crc16 ([version, frameType.toU8, 0] ++ leBytes seq ++ leBytes ack ++
        leBytes (UInt16.ofNat payload.length) ++ payload))) ++ [delimiter] =
      mcLinkFrameBytes frameType.toU8 seq ack payload := by
    rw [cobsEncode_eq]
    rfl
  rw [encode, if_neg (Nat.not_lt.mpr h), if_neg (by simp [hknown])]
  dsimp only
  rw [hbytes]
  exact if_neg (Nat.not_lt.mpr hlen)

theorem encode_eq_some {frameType : FrameType} {seq ack : UInt16} {payload frame : List UInt8}
    (h : encode frameType seq ack payload = some frame) :
    payload.length ≤ maxPayload ∧ frame = mcLinkFrameBytes frameType.toU8 seq ack payload := by
  by_cases hlen : payload.length ≤ maxPayload
  · by_cases hknown : frameType.isUnknown
    · rw [encode, if_neg (Nat.not_lt.mpr hlen), if_pos hknown] at h
      contradiction
    · rw [encode_eq (by simpa using hknown) hlen] at h
      exact ⟨hlen, (Option.some.inj h).symm⟩
  · rw [encode, if_pos (by omega)] at h
    contradiction

theorem cobsDecodeLoop_of_decodes {encoded xs : List UInt8} (h : Cobs.Decodes encoded xs)
    (decoded : List UInt8) : cobsDecodeLoop decoded encoded = .ok (decoded ++ xs) := by
  induction h generalizing decoded with
  | nil => simp [cobsDecodeLoop]
  | @block c data rest xs hc _ ih =>
    have hzero : c ≠ 0 := by
      rintro rfl
      simp at hc
    rw [List.cons_append, cobsDecodeLoop, if_neg hzero]
    simp only [hc, Nat.add_sub_cancel, List.length_append, List.take_left, List.drop_left]
    rw [if_neg (by omega)]
    by_cases hgap : c ≠ 0xff ∧ rest ≠ []
    · simp [Cobs.gap, hgap, ih]
    · simp [Cobs.gap, hgap, ih]

/-- The frame the bridge reads for a frame the firmware's decoder reads. -/
def Frame.ofMcLinkFrame (frame : McLinkFrame) : Frame :=
  { frameType := .fromU8 frame.type, flags := frame.flags, seq := frame.seq, ack := frame.ack,
    payload := frame.payload }

/-- Both body parsers accept the same bodies. -/
theorem parseBody_of_mcLinkParseBody {body : List UInt8} {frame : McLinkFrame}
    (h : mcLinkParseBody body = some frame) : parseBody body = .ok (.ofMcLinkFrame frame) := by
  unfold mcLinkParseBody at h
  split at h
  case h_2 => contradiction
  case h_1 version type flags seq0 seq1 ack0 ack1 len0 len1 rest =>
    dsimp only at h
    split_ifs at h with hshort hversion hmax hexact
    split at h
    case h_2 => contradiction
    case h_1 crc0 crc1 tail hrest =>
      split_ifs at h with hcrc
      cases h
      simp only [parseBody]
      rw [if_neg hshort, if_neg hversion, if_neg hmax, if_neg hexact, hrest]
      exact if_neg hcrc

theorem decodeOne_mcLinkFrameBytes {payload : List UInt8} (h : payload.length ≤ maxPayload)
    (type : UInt8) (seq ack : UInt16) :
    decodeOne (mcLinkFrameBytes type seq ack payload) =
      .ok { frameType := .fromU8 type, flags := 0, seq := seq, ack := ack, payload := payload } := by
  have hlen := length_mcLinkFrameBytes_le h type seq ack
  have hnil : Cobs.encode (mcLinkBody type seq ack payload) ≠ [] := Cobs.encodeFrom_ne_nil _ _
  have hlast : (mcLinkFrameBytes type seq ack payload).getLast? = some delimiter := by
    simp [mcLinkFrameBytes]
  have hdrop : (mcLinkFrameBytes type seq ack payload).dropLast =
      Cobs.encode (mcLinkBody type seq ack payload) := by
    simp [mcLinkFrameBytes]
  have hdecode : cobsDecode (Cobs.encode (mcLinkBody type seq ack payload)) =
      .ok (mcLinkBody type seq ack payload) :=
    cobsDecodeLoop_of_decodes (Cobs.decodes_encode _) []
  have hbad : ¬ ((mcLinkFrameBytes type seq ack payload).length > maxEncodedLen ∨
      (mcLinkFrameBytes type seq ack payload).getLast? ≠ some delimiter) := by
    simp only [hlast, not_or, not_not, and_true]
    exact Nat.not_lt.mpr hlen
  rw [decodeOne, if_neg hbad]
  simp only [hdrop]
  rw [if_neg hnil, if_neg (Cobs.zero_notMem_encode _), hdecode]
  exact parseBody_of_mcLinkParseBody (mcLinkParseBody_mcLinkBody h type seq ack)

end StarrySky.Bridge.Link
