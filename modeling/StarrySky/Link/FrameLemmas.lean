import StarrySky.Base.Delimited
import StarrySky.Link.Frame

/-! The stream encoder computes the block encoding, and a decoded frame is the
frame that was encoded. -/

namespace StarrySky.Link
open StarrySky.Base

/-- The encoder has `done` behind it and an open block that holds `block`. -/
structure CobsStreamEncoder.IsOpen (encoder : CobsStreamEncoder) (done block : List UInt8) :
    Prop where
  dst_eq : encoder.dst = done ++ 0 :: block
  codeIndex_eq : encoder.codeIndex = done.length
  code_eq : encoder.code = Cobs.code block
  isOpen : encoder.blockOpen = true
  openBlock : Cobs.OpenBlock block

theorem CobsStreamEncoder.IsOpen.dst_storeCode {encoder : CobsStreamEncoder}
    {done block : List UInt8} (h : encoder.IsOpen done block) :
    encoder.storeCode.dst = done ++ Cobs.code block :: block := by
  simp [storeCode, h.dst_eq, h.codeIndex_eq, h.code_eq]

def finishAfter (encoder : CobsStreamEncoder) (xs : List UInt8) : Option (List UInt8) :=
  (cobsStreamWrite encoder xs).bind cobsStreamFinish

theorem finishAfter_cons (encoder : CobsStreamEncoder) (x : UInt8) (xs : List UInt8) :
    finishAfter encoder (x :: xs) =
      (cobsStreamWriteByte encoder x).bind fun encoder => finishAfter encoder xs := by
  rw [finishAfter, cobsStreamWrite]
  cases cobsStreamWriteByte encoder x <;> rfl

theorem cobsStreamWrite_append (encoder : CobsStreamEncoder) (xs ys : List UInt8) :
    cobsStreamWrite encoder (xs ++ ys) =
      (cobsStreamWrite encoder xs).bind fun encoder => cobsStreamWrite encoder ys := by
  induction xs generalizing encoder with
  | nil => rfl
  | cons x xs ih =>
    simp only [List.cons_append, cobsStreamWrite]
    cases cobsStreamWriteByte encoder x with
    | none => rfl
    | some encoder => exact ih encoder

theorem cobsStreamOpenBlock_of_lt {encoder : CobsStreamEncoder}
    (h : encoder.dst.length < encoder.dstCap) :
    ∃ opened, cobsStreamOpenBlock encoder = some opened ∧ opened.IsOpen encoder.dst [] ∧
      opened.dstCap = encoder.dstCap := by
  refine ⟨_, if_neg (by omega), ⟨rfl, rfl, rfl, rfl, Cobs.openBlock_nil⟩, rfl⟩

theorem cobsStreamWriteByte_closed {encoder opened : CobsStreamEncoder} {done : List UInt8}
    (hclosed : encoder.blockOpen = false) (hopen : cobsStreamOpenBlock encoder = some opened)
    (h : opened.IsOpen done []) (x : UInt8) :
    cobsStreamWriteByte encoder x = cobsStreamWriteByte opened x := by
  simp [cobsStreamWriteByte, hclosed, hopen, h.isOpen]

/-- What a closed encoder still has to write: nothing when a full block ended the
input, and a block otherwise. -/
def closedTail (encoder : CobsStreamEncoder) (xs : List UInt8) : List UInt8 :=
  if encoder.dst.length = 0 ∨ encoder.trailingZeroPending ∨ xs ≠ [] then Cobs.encode xs else []

theorem finishAfter_closed {xs : List UInt8}
    (hopened : ∀ (encoder : CobsStreamEncoder) (done block : List UInt8),
      encoder.IsOpen done block →
      (done ++ Cobs.encodeFrom block xs).length ≤ encoder.dstCap →
      finishAfter encoder xs = some (done ++ Cobs.encodeFrom block xs))
    {encoder : CobsStreamEncoder} (hclosed : encoder.blockOpen = false)
    (hcap : (encoder.dst ++ closedTail encoder xs).length ≤ encoder.dstCap) :
    finishAfter encoder xs = some (encoder.dst ++ closedTail encoder xs) := by
  by_cases htail : encoder.dst.length = 0 ∨ encoder.trailingZeroPending ∨ xs ≠ []
  · rw [closedTail, if_pos htail] at hcap ⊢
    have hroom : encoder.dst.length < encoder.dstCap := by
      have := Cobs.length_encodeFrom_gt [] xs
      simp only [List.length_append, Cobs.encode, List.length_nil] at hcap this
      omega
    obtain ⟨opened, hopen, hisOpen, hcapEq⟩ := cobsStreamOpenBlock_of_lt hroom
    have hfinish := hopened opened encoder.dst [] hisOpen (by rw [hcapEq]; exact hcap)
    cases xs with
    | nil =>
      have hpending : encoder.dst.length = 0 ∨ encoder.trailingZeroPending = true := by
        simpa using htail
      simp only [finishAfter, cobsStreamWrite, Option.bind_some, cobsStreamFinish, hclosed,
        Bool.false_eq_true, ↓reduceIte, if_pos hpending, hopen, Option.map_some,
        hisOpen.dst_storeCode]
      rfl
    | cons x xs =>
      rw [finishAfter_cons] at hfinish ⊢
      rw [cobsStreamWriteByte_closed hclosed hopen hisOpen, hfinish]
      rfl
  · rw [closedTail, if_neg htail]
    simp only [not_or, not_not] at htail
    obtain ⟨hdst, hpending, rfl⟩ := htail
    simp [finishAfter, cobsStreamWrite, cobsStreamFinish, hclosed, hdst, hpending]

theorem finishAfter_open (xs : List UInt8) :
    ∀ (encoder : CobsStreamEncoder) (done block : List UInt8), encoder.IsOpen done block →
      (done ++ Cobs.encodeFrom block xs).length ≤ encoder.dstCap →
      finishAfter encoder xs = some (done ++ Cobs.encodeFrom block xs) := by
  -- From an open block the encoder writes the block encoding, when it fits.
  induction xs with
  | nil =>
    intro encoder done block h _
    simp [finishAfter, cobsStreamWrite, cobsStreamFinish, h.isOpen, h.dst_storeCode,
      Cobs.encodeFrom]
  | cons x xs ih =>
    intro encoder done block h hcap
    have hlen := h.openBlock.length_lt
    have hdst : encoder.dst.length = done.length + 1 + block.length := by
      simp only [h.dst_eq, List.length_append, List.length_cons]
      omega
    rw [finishAfter_cons]
    by_cases hx : x = 0
    · subst hx
      have hwrite : cobsStreamWriteByte encoder 0 =
          some { encoder.storeCode with blockOpen := false, trailingZeroPending := true } := by
        simp [cobsStreamWriteByte, h.isOpen]
      rw [Cobs.encodeFrom, if_pos rfl] at hcap ⊢
      rw [hwrite, Option.bind_some, finishAfter_closed ih rfl]
      · simp [closedTail, h.dst_storeCode, Cobs.encode]
      · simp only [closedTail, h.dst_storeCode, Cobs.encode] at hcap ⊢
        simpa [CobsStreamEncoder.storeCode] using hcap
    · have hroom : encoder.dst.length < encoder.dstCap := by
        have hge : block.length + 2 ≤ (Cobs.encodeFrom block (x :: xs)).length := by
          rw [Cobs.encodeFrom, if_neg hx]
          split_ifs with hfull hxs
          · simp only [List.length_append, List.length_cons]
            omega
          · simp only [List.length_append, List.length_cons]
            omega
          · have := Cobs.length_encodeFrom_gt (block ++ [x]) xs
            rw [List.length_append, List.length_singleton] at this
            omega
        simp only [List.length_append] at hcap
        omega
      have hcode : encoder.code + 1 = Cobs.code (block ++ [x]) := by
        apply UInt8.toNat_inj.mp
        rw [h.code_eq, UInt8.toNat_add, Cobs.toNat_code _ (by omega),
          Cobs.toNat_code _ (by simp; omega)]
        simp
        omega
      by_cases hfull : block.length = 253
      · have hff : Cobs.code (block ++ [x]) = 0xff := by simp [Cobs.code, hfull]
        have hwrite : cobsStreamWriteByte encoder x =
            some { encoder with
              dst := done ++ Cobs.code (block ++ [x]) :: (block ++ [x])
              code := Cobs.code (block ++ [x])
              blockOpen := false, trailingZeroPending := false } := by
          simp [cobsStreamWriteByte, h.isOpen, hx, hcode, hff, CobsStreamEncoder.storeCode,
            h.dst_eq, h.codeIndex_eq]
          have := hroom
          rw [hdst] at this
          omega
        rw [Cobs.encodeFrom, if_neg hx, if_pos hfull] at hcap ⊢
        rw [hwrite, Option.bind_some, finishAfter_closed ih rfl]
        · simp [closedTail, Cobs.encode]
        · simpa [closedTail, Cobs.encode] using hcap
      · have hff : Cobs.code (block ++ [x]) ≠ 0xff := by
          intro hcontra
          have := Cobs.toNat_code (block ++ [x]) (by simp; omega)
          rw [hcontra] at this
          simp at this
          omega
        have hwrite : cobsStreamWriteByte encoder x =
            some { encoder with
              dst := done ++ 0 :: (block ++ [x]), code := Cobs.code (block ++ [x]) } := by
          simp [cobsStreamWriteByte, h.isOpen, hx, hcode, hff, h.dst_eq]
          have := hroom
          rw [hdst] at this
          omega
        rw [Cobs.encodeFrom, if_neg hx, if_neg hfull] at hcap ⊢
        rw [hwrite, Option.bind_some]
        exact ih _ _ _ ⟨rfl, h.codeIndex_eq, rfl, h.isOpen, h.openBlock.snoc hx hfull⟩ hcap

/-- The body of a frame before it is stuffed. -/
def mcLinkBody (type : UInt8) (seq ack : UInt16) (payload : List UInt8) : List UInt8 :=
  mcLinkHeader type seq ack payload.length ++ payload ++
    leBytes (mcLinkCrc16 (mcLinkHeader type seq ack payload.length ++ payload))

theorem length_mcLinkBody (type : UInt8) (seq ack : UInt16) (payload : List UInt8) :
    (mcLinkBody type seq ack payload).length = payload.length + 11 := by
  simp only [mcLinkBody, mcLinkHeader, List.length_append, length_leBytes, List.length_cons,
    List.length_nil]
  omega

/-- The stuffed body and its delimiter. -/
def mcLinkFrameBytes (type : UInt8) (seq ack : UInt16) (payload : List UInt8) : List UInt8 :=
  Cobs.encode (mcLinkBody type seq ack payload) ++ [mcLinkDelimiter]

theorem length_mcLinkFrameBytes_le {payload : List UInt8} (h : payload.length ≤ mcLinkMaxPayload)
    (type : UInt8) (seq ack : UInt16) :
    (mcLinkFrameBytes type seq ack payload).length ≤ mcLinkMaxFrameLen := by
  have hlen := Cobs.length_encode_le (mcLinkBody type seq ack payload)
  rw [length_mcLinkBody] at hlen
  simp only [mcLinkMaxPayload, mcLinkFrameBytes, mcLinkMaxFrameLen, mcLinkMaxEncodedLen,
    List.length_append, List.length_singleton] at h hlen ⊢
  omega

theorem isFrame_mcLinkFrameBytes (type : UInt8) (seq ack : UInt16) (payload : List UInt8) :
    IsFrame mcLinkDelimiter (mcLinkFrameBytes type seq ack payload) :=
  ⟨_, rfl, Cobs.zero_notMem_encode _⟩

theorem mcLinkEncode_of_le {payload : List UInt8} (h : payload.length ≤ mcLinkMaxPayload)
    {outCap : ℕ} (hcap : mcLinkMaxFrameLen ≤ outCap) (type : UInt8) (seq ack : UInt16) :
    mcLinkEncode type seq ack payload outCap = some (mcLinkFrameBytes type seq ack payload) := by
  have hlen := length_mcLinkFrameBytes_le h type seq ack
  have hcrc : crc16Update (crc16Update mcLinkCrcInit (mcLinkHeader type seq ack payload.length))
      payload = mcLinkCrc16 (mcLinkHeader type seq ack payload.length ++ payload) := by
    simp only [mcLinkCrc16, crc16Update, List.foldl_append]
  simp only [mcLinkFrameBytes, List.length_append, List.length_singleton, mcLinkMaxFrameLen,
    mcLinkMaxEncodedLen] at hlen hcap
  have hinit : cobsStreamInit (outCap - 1) = some
      { dst := [], dstCap := outCap - 1, codeIndex := 0, code := 1,
        blockOpen := false, trailingZeroPending := false } := if_neg (by omega)
  have hfinish : finishAfter
      { dst := [], dstCap := outCap - 1, codeIndex := 0, code := 1,
        blockOpen := false, trailingZeroPending := false } (mcLinkBody type seq ack payload) =
      some (Cobs.encode (mcLinkBody type seq ack payload)) := by
    rw [finishAfter_closed (finishAfter_open _) rfl]
    · simp [closedTail]
    · simp only [closedTail, List.length_nil, true_or, if_true, List.nil_append]
      omega
  have hstream : ((cobsStreamInit (outCap - 1)).bind fun encoder =>
      (cobsStreamWrite encoder (mcLinkHeader type seq ack payload.length)).bind fun encoder =>
      (cobsStreamWrite encoder payload).bind fun encoder =>
      (cobsStreamWrite encoder (leBytes (crc16Update (crc16Update mcLinkCrcInit
        (mcLinkHeader type seq ack payload.length)) payload))).bind cobsStreamFinish) =
      some (Cobs.encode (mcLinkBody type seq ack payload)) := by
    rw [hinit, hcrc, Option.bind_some, ← hfinish, finishAfter, mcLinkBody, cobsStreamWrite_append,
      cobsStreamWrite_append, Option.bind_assoc, Option.bind_assoc]
  rw [mcLinkEncode, if_neg (by omega), if_neg (by omega)]
  simp only [Option.bind_eq_bind]
  rw [hstream]
  exact if_neg (by simp only [mcLinkMaxEncodedWithoutDelimiter, mcLinkMaxEncodedLen]; omega)

theorem mcLinkEncode_eq_some {type : UInt8} {seq ack : UInt16} {payload frame : List UInt8}
    (h : mcLinkEncode type seq ack payload mcLinkMaxFrameLen = some frame) :
    payload.length ≤ mcLinkMaxPayload ∧ frame = mcLinkFrameBytes type seq ack payload := by
  by_cases hlen : payload.length ≤ mcLinkMaxPayload
  · rw [mcLinkEncode_of_le hlen (Nat.le_refl _)] at h
    exact ⟨hlen, (Option.some.inj h).symm⟩
  · rw [mcLinkEncode, if_pos (by omega)] at h
    contradiction

theorem cobsDecodeLoop_of_decodes {encoded xs : List UInt8} (h : Cobs.Decodes encoded xs)
    {dst : List UInt8} {dstCap : ℕ} (hcap : dst.length + xs.length ≤ dstCap) :
    cobsDecodeLoop dstCap dst encoded = some (dst ++ xs) := by
  induction h generalizing dst with
  | nil => simp [cobsDecodeLoop]
  | @block c data rest xs hc _ ih =>
    have hzero : c ≠ 0 := by
      rintro rfl
      simp at hc
    simp only [List.length_append] at hcap
    rw [List.cons_append, cobsDecodeLoop, if_neg hzero]
    simp only [hc, Nat.add_sub_cancel, List.length_append, List.take_left, List.drop_left]
    rw [if_neg (by omega), if_neg (by omega)]
    by_cases hgap : c ≠ 0xff ∧ rest ≠ []
    · simp only [Cobs.gap, if_pos hgap, List.length_singleton] at hcap ⊢
      rw [if_neg (by omega), ih (by simp only [List.length_append, List.length_singleton]; omega)]
      simp
    · simp only [Cobs.gap, if_neg hgap, List.length_nil] at hcap ⊢
      rw [ih (by simp only [List.length_append]; omega)]
      simp

theorem mcLinkParseBody_mcLinkBody {payload : List UInt8}
    (h : payload.length ≤ mcLinkMaxPayload) (type : UInt8) (seq ack : UInt16) :
    mcLinkParseBody (mcLinkBody type seq ack payload) =
      some { type := type, flags := 0, seq := seq, ack := ack, payload := payload } := by
  have hlen : (UInt16.ofNat payload.length).toNat = payload.length := by
    rw [UInt16.toNat_ofNat']
    simp only [mcLinkMaxPayload] at h
    omega
  have hbody := length_mcLinkBody type seq ack payload
  have htake : (mcLinkBody type seq ack payload).take (mcLinkBodyHeaderLen + payload.length) =
      mcLinkHeader type seq ack payload.length ++ payload := by
    rw [mcLinkBody, List.take_left']
    simp [mcLinkHeader, mcLinkBodyHeaderLen]
    omega
  generalize hcrc : mcLinkCrc16 (mcLinkHeader type seq ack payload.length ++ payload) = crc at *
  have hshape : mcLinkBody type seq ack payload =
      mcLinkVersion :: type :: 0 :: seq.toUInt8 :: (seq >>> 8).toUInt8 :: ack.toUInt8 ::
        (ack >>> 8).toUInt8 :: (UInt16.ofNat payload.length).toUInt8 ::
        (UInt16.ofNat payload.length >>> 8).toUInt8 :: (payload ++ leBytes crc) := by
    rw [mcLinkBody, hcrc]
    rfl
  rw [hshape] at hbody htake ⊢
  have hshort : ¬ payload.length + 11 < mcLinkBodyHeaderLen + mcLinkCrcLen := by
    simp only [mcLinkBodyHeaderLen, mcLinkCrcLen]
    omega
  have hexact : ¬ payload.length + 11 ≠ mcLinkBodyHeaderLen + payload.length + mcLinkCrcLen := by
    simp only [mcLinkBodyHeaderLen, mcLinkCrcLen]
    omega
  simp only [mcLinkParseBody, ofLeBytes_leBytes, hlen, hbody, htake, hcrc, List.drop_left,
    List.take_left, hshort, hexact, Nat.not_lt.mpr h, if_false]
  simp [leBytes, ofLeBytes_leBytes]

theorem mcLinkDecodeFrame_mcLinkFrameBytes {payload : List UInt8}
    (h : payload.length ≤ mcLinkMaxPayload) (type : UInt8) (seq ack : UInt16) :
    mcLinkDecodeFrame (mcLinkFrameBytes type seq ack payload) =
      some { type := type, flags := 0, seq := seq, ack := ack, payload := payload } := by
  have hlen := length_mcLinkFrameBytes_le h type seq ack
  have hnil : Cobs.encode (mcLinkBody type seq ack payload) ≠ [] := Cobs.encodeFrom_ne_nil _ _
  have hpos := List.length_pos_of_ne_nil hnil
  have hdecode : cobsDecode (Cobs.encode (mcLinkBody type seq ack payload)) mcLinkMaxBodyLen =
      some (mcLinkBody type seq ack payload) := by
    refine cobsDecodeLoop_of_decodes (Cobs.decodes_encode _) ?_
    simp only [length_mcLinkBody, mcLinkMaxBodyLen, mcLinkBodyHeaderLen, mcLinkCrcLen,
      List.length_nil] at h ⊢
    omega
  simp only [mcLinkFrameBytes, List.length_append, List.length_singleton, mcLinkMaxFrameLen,
    mcLinkMaxEncodedLen] at hlen
  simp only [mcLinkDecodeFrame, decodeFrameWithScratch, mcLinkFrameBytes, mcLinkMaxEncodedLen,
    mcLinkMaxEncodedWithoutDelimiter, List.length_append, List.length_singleton,
    List.getLast?_append, List.getLast?_singleton, List.dropLast_concat]
  rw [if_neg (by simp; omega), if_neg (by omega), if_neg (Cobs.zero_notMem_encode _), hdecode]
  exact mcLinkParseBody_mcLinkBody h type seq ack

end StarrySky.Link
