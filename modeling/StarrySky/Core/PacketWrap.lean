import StarrySky.Core.Framing

/-! The wrappers of `core/src/mc_packet.c`: which of the packets they write can be read. -/

namespace StarrySky.Core
open StarrySky.Base

/-- `memcpy` to `dst + pos`. -/
def memcpyAt (dst : List UInt8) (pos : ℕ) (src : List UInt8) : List UInt8 :=
  dst.take pos ++ src ++ dst.drop (pos + src.length)

/-- The returned length and the `dst_cap` bytes at `dst`. -/
def mcPacketWrap (body dst : List UInt8) : ℕ × List UInt8 :=
  if body.length > mcMaxPacketBody then (0, dst)
  else
    match mcVarintEncode (Int32.ofNat body.length) 5 with
    | none => (0, dst)
    | some header =>
      if dst.length < header.length ∨ body.length > dst.length - header.length then (0, dst)
      else (header.length + body.length, memcpyAt (memcpyAt dst 0 header) header.length body)

def mcPacketWrapCompressedPlain (body dst : List UInt8) : ℕ × List UInt8 :=
  if body.length > mcMaxPacketBody then (0, dst)
  else
    match mcVarintEncode (Int32.ofNat (1 + body.length)) 5 with
    | none => (0, dst)
    | some outer =>
      if dst.length < outer.length + (1 + body.length) then (0, dst)
      else
        (outer.length + (1 + body.length),
          memcpyAt (memcpyAt (memcpyAt dst 0 outer) outer.length [0]) (outer.length + 1) body)

def mcPacketCompressedPayloadFrameLen (uncompressedBodyLen : Int32) (compressedPayloadLen : ℕ) :
    ℕ :=
  if uncompressedBodyLen ≤ 0 ∨ uncompressedBodyLen.toNatClampNeg > mcMaxPacketBody ∨
      compressedPayloadLen > mcMaxPacketBody then 0
  else
    match mcVarintEncode uncompressedBodyLen 5 with
    | none => 0
    | some dataLen =>
      match mcVarintEncode (Int32.ofNat (dataLen.length + compressedPayloadLen)) 5 with
      | none => 0
      | some outer => outer.length + (dataLen.length + compressedPayloadLen)

def mcPacketWrapCompressedPayload (uncompressedBodyLen : Int32)
    (compressedPayload dst : List UInt8) : ℕ × List UInt8 :=
  if uncompressedBodyLen ≤ 0 ∨ uncompressedBodyLen.toNatClampNeg > mcMaxPacketBody ∨
      compressedPayload.length > mcMaxPacketBody then (0, dst)
  else
    match mcVarintEncode uncompressedBodyLen 5 with
    | none => (0, dst)
    | some dataLen =>
      match mcVarintEncode (Int32.ofNat (dataLen.length + compressedPayload.length)) 5 with
      | none => (0, dst)
      | some outer =>
        if dst.length < outer.length + (dataLen.length + compressedPayload.length) then (0, dst)
        else
          (outer.length + (dataLen.length + compressedPayload.length),
            memcpyAt (memcpyAt (memcpyAt dst 0 outer) outer.length dataLen)
              (outer.length + dataLen.length) compressedPayload)

/-- What each wrapper comes down to: a whole frame at the start of the buffer. -/
def putFrame (frame dst : List UInt8) : ℕ × List UInt8 :=
  if frame.length ≤ dst.length then (frame.length, frame ++ dst.drop frame.length) else (0, dst)

theorem memcpyAt_zero (dst src : List UInt8) : memcpyAt dst 0 src = src ++ dst.drop src.length := by
  rw [memcpyAt, List.take_zero, List.nil_append, Nat.zero_add]

theorem memcpyAt_append {front : List UInt8} {pos : ℕ} (hpos : pos = front.length)
    (dst src : List UInt8) :
    memcpyAt (front ++ dst.drop front.length) pos src =
      (front ++ src) ++ dst.drop (front ++ src).length := by
  subst hpos
  rw [memcpyAt, List.take_left, List.drop_append, List.drop_eq_nil_of_le (Nat.le_add_right _ _),
    List.nil_append, Nat.add_sub_cancel_left, List.drop_drop, List.length_append]

theorem mcPacketWrap_eq (body dst : List UInt8) :
    mcPacketWrap body dst =
      if body.length ≤ mcMaxPacketBody then putFrame (plainFrame body) dst else (0, dst) := by
  have hlength : (plainFrame body).length =
      (varintBytes (Int32.ofNat body.length)).length + body.length := List.length_append
  rw [mcPacketWrap, mcVarintEncode_eq]
  dsimp only
  by_cases hbody : body.length ≤ mcMaxPacketBody
  case neg => rw [if_pos (Nat.lt_of_not_le hbody), if_neg hbody]
  rw [if_neg (Nat.not_lt.mpr hbody), if_pos hbody, putFrame, hlength]
  by_cases hfits : (varintBytes (Int32.ofNat body.length)).length + body.length ≤ dst.length
  · rw [if_neg (by omega), if_pos hfits, memcpyAt_zero, memcpyAt_append rfl, ← hlength]
    rfl
  · rw [if_pos (by omega), if_neg hfits]

theorem mcPacketWrapCompressedPlain_eq (body dst : List UInt8) :
    mcPacketWrapCompressedPlain body dst =
      if body.length ≤ mcMaxPacketBody then putFrame (compressedFrame 0 body) dst
      else (0, dst) := by
  have hframe : compressedFrame 0 body =
      varintBytes (Int32.ofNat (1 + body.length)) ++ [0] ++ body := by
    rw [compressedFrame, plainFrame, varintBytes_zero, List.length_append, List.append_assoc]
    rfl
  have hlength : (compressedFrame 0 body).length =
      (varintBytes (Int32.ofNat (1 + body.length))).length + (1 + body.length) := by
    rw [hframe, List.length_append, List.length_append, List.length_singleton, Nat.add_assoc]
  rw [mcPacketWrapCompressedPlain, mcVarintEncode_eq]
  dsimp only
  by_cases hbody : body.length ≤ mcMaxPacketBody
  case neg => rw [if_pos (Nat.lt_of_not_le hbody), if_neg hbody]
  rw [if_neg (Nat.not_lt.mpr hbody), if_pos hbody, putFrame, hlength]
  have houter : (varintBytes (Int32.ofNat (1 + body.length))).length + 1 =
      (varintBytes (Int32.ofNat (1 + body.length)) ++ [0]).length := by
    rw [List.length_append, List.length_singleton]
  by_cases hfits : (varintBytes (Int32.ofNat (1 + body.length))).length + (1 + body.length) ≤
      dst.length
  · rw [if_neg (Nat.not_lt.mpr hfits), if_pos hfits, memcpyAt_zero, memcpyAt_append rfl,
      memcpyAt_append houter, ← hlength, ← hframe]
  · rw [if_pos (Nat.lt_of_not_le hfits), if_neg hfits]

/-- A data length and a payload that the payload wrapper takes. -/
def PayloadWithinLimit (uncompressedBodyLen : Int32) (compressedPayload : List UInt8) : Prop :=
  0 < uncompressedBodyLen ∧ uncompressedBodyLen.toNatClampNeg ≤ mcMaxPacketBody ∧
    compressedPayload.length ≤ mcMaxPacketBody

instance (uncompressedBodyLen : Int32) (compressedPayload : List UInt8) :
    Decidable (PayloadWithinLimit uncompressedBodyLen compressedPayload) :=
  inferInstanceAs (Decidable (_ ∧ _))

theorem payload_overLimit_iff (uncompressedBodyLen : Int32) (compressedPayload : List UInt8) :
    (uncompressedBodyLen ≤ 0 ∨ uncompressedBodyLen.toNatClampNeg > mcMaxPacketBody ∨
      compressedPayload.length > mcMaxPacketBody) ↔
      ¬ PayloadWithinLimit uncompressedBodyLen compressedPayload := by
  rw [PayloadWithinLimit, not_and_or, not_and_or, Int32.not_lt, Nat.not_le, Nat.not_le]

theorem mcPacketWrapCompressedPayload_eq (uncompressedBodyLen : Int32)
    (compressedPayload dst : List UInt8) :
    mcPacketWrapCompressedPayload uncompressedBodyLen compressedPayload dst =
      if PayloadWithinLimit uncompressedBodyLen compressedPayload then
        putFrame (compressedFrame uncompressedBodyLen compressedPayload) dst
      else (0, dst) := by
  have hframe : compressedFrame uncompressedBodyLen compressedPayload =
      varintBytes (Int32.ofNat ((varintBytes uncompressedBodyLen).length +
        compressedPayload.length)) ++ varintBytes uncompressedBodyLen ++ compressedPayload := by
    rw [compressedFrame, plainFrame, List.length_append, List.append_assoc]
  have hlength := congrArg List.length hframe
  rw [List.length_append, List.length_append, Nat.add_assoc] at hlength
  simp only [mcPacketWrapCompressedPayload, mcVarintEncode_eq]
  by_cases hlimit : PayloadWithinLimit uncompressedBodyLen compressedPayload
  case neg => rw [if_pos ((payload_overLimit_iff _ _).mpr hlimit), if_neg hlimit]
  rw [if_neg (mt (payload_overLimit_iff _ _).mp (not_not.mpr hlimit)), if_pos hlimit, putFrame,
    ← hlength]
  by_cases hfits : (compressedFrame uncompressedBodyLen compressedPayload).length ≤ dst.length
  · rw [if_neg (Nat.not_lt.mpr hfits), if_pos hfits, memcpyAt_zero, memcpyAt_append rfl,
      memcpyAt_append (List.length_append).symm, ← hframe]
  · rw [if_pos (Nat.lt_of_not_le hfits), if_neg hfits]

theorem mcPacketCompressedPayloadFrameLen_eq {uncompressedBodyLen : Int32}
    {compressedPayload : List UInt8}
    (h : PayloadWithinLimit uncompressedBodyLen compressedPayload) :
    mcPacketCompressedPayloadFrameLen uncompressedBodyLen compressedPayload.length =
      (compressedFrame uncompressedBodyLen compressedPayload).length := by
  simp only [mcPacketCompressedPayloadFrameLen, mcVarintEncode_eq]
  rw [if_neg (mt (payload_overLimit_iff _ _).mp (not_not.mpr h)), compressedFrame, plainFrame,
    List.length_append, List.length_append]

theorem mcPacketTryRead_of_lt {bytes : List UInt8} {v : ℕ} (h : IsVarint bytes v)
    (hlen : bytes.length ≤ varintMaxBytes) (hsmall : v < 2 ^ 32) (hbody : mcMaxPacketBody < v)
    (rest : List UInt8) : mcPacketTryRead (bytes ++ rest) = none := by
  rw [mcPacketTryRead, mcVarintDecode_of_isVarint h hlen, if_pos hsmall]
  exact if_pos ((bodyLen_invalid_iff hsmall).mpr hbody)

theorem mcPacketTryRead_plainFrame {body : List UInt8} (h : body.length < 2 ^ 31) :
    mcPacketTryRead (plainFrame body) =
      if body.length ≤ mcMaxPacketBody then
        some { body, frameLen := (plainFrame body).length }
      else none := by
  have hvarint := isVarint_ofNat h
  have hlen := length_varintBytes_le (Int32.ofNat body.length)
  by_cases hbody : body.length ≤ mcMaxPacketBody
  · rw [if_pos hbody, plainFrame, mcPacketTryRead_of_isVarint hvarint hlen hbody body,
      if_pos le_rfl, List.take_length, List.length_append]
  · rw [if_neg hbody]
    exact mcPacketTryRead_of_lt hvarint hlen (h.trans (by decide)) (Nat.lt_of_not_le hbody) body

theorem mcPacketGetCompressedBody_append {dataLen : Int32} (hnonneg : 0 ≤ dataLen)
    (hlimit : dataLen.toNatClampNeg ≤ mcMaxPacketBody) (payload : List UInt8) :
    mcPacketGetCompressedBody (varintBytes dataLen ++ payload) = some (payload, dataLen) := by
  have hvalue : Int32.ofNat dataLen.toUInt32.toNat = dataLen := by
    rw [← toInt32_eq_ofNat]
    exact Int32.toInt32_toUInt32 dataLen
  have hdecode := mcVarintDecode_of_isVarint (isVarint_varintBytes dataLen)
    (length_varintBytes_le dataLen) payload
  rw [if_pos (UInt32.toNat_lt _), hvalue] at hdecode
  have hused : ¬ (varintBytes dataLen).length > (varintBytes dataLen ++ payload).length := by
    rw [List.length_append]
    exact Nat.not_lt.mpr (Nat.le_add_right _ _)
  have hvalid : ¬ (dataLen < 0 ∨ dataLen.toNatClampNeg > mcMaxPacketBody) :=
    not_or.mpr ⟨Int32.not_lt.mpr hnonneg, Nat.not_lt.mpr hlimit⟩
  rw [mcPacketGetCompressedBody, hdecode]
  dsimp only
  rw [if_neg hused, if_neg hvalid, List.drop_left]

/-- The bytes are one packet, and it has this body. -/
def ReadsPlain (body bytes : List UInt8) : Prop :=
  mcPacketTryRead bytes = some { body, frameLen := bytes.length }

/-- The bytes are one packet of the compressed format, with this data length and body. -/
def ReadsCompressed (dataLen : Int32) (body bytes : List UInt8) : Prop :=
  ∃ packet, mcPacketTryRead bytes = some packet ∧ packet.frameLen = bytes.length ∧
    mcPacketGetCompressedBody packet.body = some (body, dataLen)

theorem readsPlain_plainFrame {body : List UInt8} (h : body.length ≤ mcMaxPacketBody) :
    ReadsPlain body (plainFrame body) := by
  rw [ReadsPlain, mcPacketTryRead_plainFrame (lt_of_le_of_lt h (by decide)), if_pos h]

theorem readsCompressed_compressedFrame_iff {dataLen : Int32} (hnonneg : 0 ≤ dataLen)
    (hlimit : dataLen.toNatClampNeg ≤ mcMaxPacketBody) {payload : List UInt8}
    (hpayload : payload.length ≤ mcMaxPacketBody) :
    ReadsCompressed dataLen payload (compressedFrame dataLen payload) ↔
      (varintBytes dataLen).length + payload.length ≤ mcMaxPacketBody := by
  have hdata := length_varintBytes_le dataLen
  have hmax : mcMaxPacketBody = 32768 := rfl
  have hsmall : (varintBytes dataLen ++ payload).length < 2 ^ 31 := by
    rw [List.length_append]
    omega
  rw [← List.length_append, ReadsCompressed, compressedFrame, mcPacketTryRead_plainFrame hsmall]
  by_cases hinner : (varintBytes dataLen ++ payload).length ≤ mcMaxPacketBody
  · refine iff_of_true ⟨_, if_pos hinner, rfl, ?_⟩ hinner
    exact mcPacketGetCompressedBody_append hnonneg hlimit payload
  · refine iff_of_false ?_ hinner
    rw [if_neg hinner]
    rintro ⟨_, h, _⟩
    cases h

/-- What a wrapper's result should be, when its input is within the limit and when it is not. -/
structure WrapsReadable (withinLimit : Prop) (frameLen : ℕ) (reads : List UInt8 → Prop)
    (dst : List UInt8) (result : ℕ × List UInt8) : Prop where
  success : result.1 ≠ 0 → result.1 = frameLen ∧ reads (result.2.take result.1)
  failure : result.1 = 0 → (¬ withinLimit ∨ dst.length < frameLen) ∧ result.2 = dst

theorem wrapsReadable_putFrame_iff {withinLimit : Prop} [Decidable withinLimit]
    {frame : List UInt8} {frameLen : ℕ} (hlen : withinLimit → frameLen = frame.length)
    (hne : frame ≠ []) (reads : List UInt8 → Prop) (dst : List UInt8) :
    WrapsReadable withinLimit frameLen reads dst
        (if withinLimit then putFrame frame dst else (0, dst)) ↔
      (withinLimit → frame.length ≤ dst.length → reads frame) := by
  by_cases hlimit : withinLimit
  case neg =>
    rw [if_neg hlimit]
    exact iff_of_true ⟨fun h => absurd rfl h, fun _ => ⟨.inl hlimit, rfl⟩⟩
      fun h => absurd h hlimit
  have hframeLen := hlen hlimit
  have hpos : frame.length ≠ 0 := List.length_eq_zero_iff.not.mpr hne
  rw [if_pos hlimit, putFrame]
  by_cases hfits : frame.length ≤ dst.length
  · have htake : (frame ++ dst.drop frame.length).take frame.length = frame := List.take_left
    rw [if_pos hfits]
    constructor
    · intro h _ _
      have hreads := (h.success hpos).2
      rwa [htake] at hreads
    · intro h
      refine ⟨fun _ => ⟨hframeLen.symm, ?_⟩, fun hzero => absurd hzero hpos⟩
      rw [htake]
      exact h hlimit hfits
  · rw [if_neg hfits]
    refine iff_of_true ⟨fun h => absurd rfl h, fun _ => ⟨.inr ?_, rfl⟩⟩ fun _ h => absurd h hfits
    rw [hframeLen]
    exact Nat.lt_of_not_le hfits

theorem plainFrame_ne_nil (body : List UInt8) : plainFrame body ≠ [] := by
  have hpos := (isVarint_varintBytes (Int32.ofNat body.length)).length_pos
  intro h
  have hlength := congrArg List.length h
  rw [plainFrame, List.length_append, List.length_nil] at hlength
  omega

/-- A plain packet is always readable; the compressed forms are unless the data length makes a
body that is within the limit too long for a packet. -/
theorem mcPacketWrap_readable (body payload dst : List UInt8) (dataLen : Int32) :
    WrapsReadable (body.length ≤ mcMaxPacketBody) (mcPacketFrameLen body.length)
      (ReadsPlain body) dst (mcPacketWrap body dst) ∧
    (WrapsReadable (body.length ≤ mcMaxPacketBody) (mcPacketCompressedPlainFrameLen body.length)
      (ReadsCompressed 0 body) dst (mcPacketWrapCompressedPlain body dst) ↔
        body.length ≠ mcMaxPacketBody ∨ dst.length < (compressedFrame 0 body).length) ∧
    (WrapsReadable (PayloadWithinLimit dataLen payload)
      (mcPacketCompressedPayloadFrameLen dataLen payload.length)
      (ReadsCompressed dataLen payload) dst (mcPacketWrapCompressedPayload dataLen payload dst) ↔
        ¬ PayloadWithinLimit dataLen payload ∨
        (varintBytes dataLen).length + payload.length ≤ mcMaxPacketBody ∨
        dst.length < (compressedFrame dataLen payload).length) := by
  refine ⟨?_, ?_, ?_⟩
  · rw [mcPacketWrap_eq, wrapsReadable_putFrame_iff mcPacketFrameLen_eq (plainFrame_ne_nil _)]
    exact fun h _ => readsPlain_plainFrame h
  · have hzero : (varintBytes 0).length = 1 := rfl
    rw [mcPacketWrapCompressedPlain_eq,
      wrapsReadable_putFrame_iff mcPacketCompressedPlainFrameLen_eq (plainFrame_ne_nil _)]
    by_cases hbody : body.length ≤ mcMaxPacketBody
    case neg => exact iff_of_true (fun h => absurd h hbody) (.inl fun h => hbody h.le)
    rw [readsCompressed_compressedFrame_iff (by decide) (by decide) hbody, hzero]
    constructor
    · intro h
      by_cases hfits : (compressedFrame 0 body).length ≤ dst.length
      · have hinner := h hbody hfits
        exact .inl (by omega)
      · exact .inr (Nat.lt_of_not_le hfits)
    · intro h _ hfits
      have hne := h.resolve_right (Nat.not_lt.mpr hfits)
      omega
  · rw [mcPacketWrapCompressedPayload_eq,
      wrapsReadable_putFrame_iff mcPacketCompressedPayloadFrameLen_eq (plainFrame_ne_nil _)]
    by_cases hlimit : PayloadWithinLimit dataLen payload
    case neg => exact iff_of_true (fun h => absurd h hlimit) (.inl hlimit)
    rw [readsCompressed_compressedFrame_iff (Int32.le_of_lt hlimit.1) hlimit.2.1 hlimit.2.2,
      or_iff_right (not_not.mpr hlimit)]
    constructor
    · intro h
      by_cases hfits : (compressedFrame dataLen payload).length ≤ dst.length
      · exact .inl (h hlimit hfits)
      · exact .inr (Nat.lt_of_not_le hfits)
    · intro h _ hfits
      exact h.resolve_right (Nat.not_lt.mpr hfits)

/-- The longest body, in a buffer that it fits into: four bytes more than the body are written,
and they are no packet. -/
theorem mcPacketWrapCompressedPlain_unreadable :
    (mcPacketWrapCompressedPlain (List.replicate 32768 0) (List.replicate 32772 0)).1 = 32772 ∧
      mcPacketTryRead ((mcPacketWrapCompressedPlain (List.replicate 32768 0)
        (List.replicate 32772 0)).2.take 32772) = none := by
  have hbody : (List.replicate 32768 (0 : UInt8)).length = 32768 := List.length_replicate
  generalize List.replicate 32768 (0 : UInt8) = body at hbody ⊢
  have hinner : (varintBytes 0 ++ body).length = 32769 := by
    rw [varintBytes_zero, List.length_append, hbody]
    rfl
  have hframe : (compressedFrame 0 body).length = 32772 := by
    have hprefix : (varintBytes (Int32.ofNat 32769)).length = 3 := by decide
    rw [compressedFrame, plainFrame, List.length_append, hinner, hprefix]
  have hfits : (compressedFrame 0 body).length ≤ (List.replicate 32772 (0 : UInt8)).length := by
    rw [hframe, List.length_replicate]
  have hlimit : body.length ≤ mcMaxPacketBody := hbody.le
  have hlong : ¬ (varintBytes 0 ++ body).length ≤ mcMaxPacketBody := by
    rw [hinner]
    decide
  have htake : (compressedFrame 0 body ++
      (List.replicate 32772 (0 : UInt8)).drop (compressedFrame 0 body).length).take 32772 =
        compressedFrame 0 body := by
    rw [← hframe]
    exact List.take_left
  rw [mcPacketWrapCompressedPlain_eq, if_pos hlimit, putFrame, if_pos hfits]
  refine ⟨hframe, ?_⟩
  rw [htake, compressedFrame, mcPacketTryRead_plainFrame (by rw [hinner]; decide), if_neg hlong]

end StarrySky.Core
