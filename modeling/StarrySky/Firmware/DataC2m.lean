import StarrySky.Link.ParserLemmas
import StarrySky.Firmware.Framing

/-! What the session does with one received frame: which link parameters it can hold,
what a link reset leaves, and how client data is taken in. -/

namespace StarrySky.Firmware
open StarrySky.Base StarrySky.Link

/-- From `s` to `t` the link was reset; the negotiated parameters stay. -/
structure LinkReset (s t : LinkSession) : Prop where
  parser : t.parser = mcLinkParserInit
  rx : t.rx = s.rx.drop s.rx.len
  rxSeqExpected : t.rxSeqExpected = 0
  txSeqNext : t.txSeqNext = 0
  negotiatedPayload : t.negotiatedPayload = s.negotiatedPayload
  creditCap : t.creditCap = s.creditCap
  supportedRateMask : t.supportedRateMask = s.supportedRateMask
  activeRateProfile : t.activeRateProfile = s.activeRateProfile
  ready : t.ready = true
  resetRequested : t.resetRequested = s.resetRequested

theorem linkReset_resetLinkStatePreservingControlTx (s : LinkSession) :
    LinkReset s (resetLinkStatePreservingControlTx s) := by
  unfold resetLinkStatePreservingControlTx dropDataTx
  dsimp only
  split_ifs <;> exact ⟨rfl, rfl, rfl, rfl, rfl, rfl, rfl, rfl, rfl, rfl⟩

theorem sameLink_dropControlTx (s : LinkSession) : SameLink s (dropControlTx s) := by
  unfold dropControlTx clearActiveTx
  dsimp only
  split_ifs <;> exact ⟨rfl, rfl, rfl, rfl, rfl, rfl, rfl, rfl, rfl, rfl⟩

theorem LinkReset.sameLink {s t u : LinkSession} (h : LinkReset s t) (htu : SameLink t u) :
    LinkReset s u :=
  ⟨htu.1.trans h.1, htu.2.trans h.2, htu.3.trans h.3, htu.4.trans h.4, htu.5.trans h.5,
    htu.6.trans h.6, htu.7.trans h.7, htu.8.trans h.8, htu.9.trans h.9, htu.10.trans h.10⟩

theorem linkReset_resetLinkState (s : LinkSession) : LinkReset s (resetLinkState s) :=
  (linkReset_resetLinkStatePreservingControlTx s).sameLink (sameLink_dropControlTx _)

theorem history_resetLinkStatePreservingControlTx (s : LinkSession) :
    (resetLinkStatePreservingControlTx s).history = s.history := by
  unfold resetLinkStatePreservingControlTx dropDataTx
  dsimp only
  split_ifs <;> rfl

theorem history_resetLinkState (s : LinkSession) : (resetLinkState s).history = s.history := by
  refine Eq.trans ?_ (history_resetLinkStatePreservingControlTx s)
  unfold resetLinkState dropControlTx clearActiveTx
  dsimp only
  split_ifs <;> rfl

/-- The link parameters a session can have: those a `READY` may carry. -/
structure Negotiated (s : LinkSession) : Prop where
  ready : s.ready = true
  payload : 0 < s.negotiatedPayload.toNat ∧ s.negotiatedPayload.toNat ≤ mcLinkMaxPayload
  credit : 0 < s.creditCap.toNat ∧ s.creditCap.toNat ≤ 512
  rateMask : s.supportedRateMask &&& 1 = 1
  rateProfile : s.activeRateProfile = 0

theorem negotiated_init (rx : Ringbuf UInt8) : Negotiated (mcLinkSessionInit rx) :=
  ⟨rfl, ⟨Nat.zero_lt_succ _, Nat.le_refl _⟩, ⟨Nat.zero_lt_succ _, Nat.le_refl _⟩,
    show mcLinkFirmwareSupportedRateMask &&& 1 = 1 by decide, rfl⟩

theorem Negotiated.sameLink {s t : LinkSession} (h : Negotiated s) (hst : SameLink s t) :
    Negotiated t := by
  constructor
  · exact hst.ready.trans h.ready
  · rw [hst.negotiatedPayload]
    exact h.payload
  · rw [hst.creditCap]
    exact h.credit
  · rw [hst.supportedRateMask]
    exact h.rateMask
  · exact hst.activeRateProfile.trans h.rateProfile

theorem Negotiated.linkReset {s t : LinkSession} (h : Negotiated s) (hst : LinkReset s t) :
    Negotiated t := by
  constructor
  · exact hst.ready
  · rw [hst.negotiatedPayload]
    exact h.payload
  · rw [hst.creditCap]
    exact h.credit
  · rw [hst.supportedRateMask]
    exact h.rateMask
  · exact hst.activeRateProfile.trans h.rateProfile

theorem toNat_minU16 (a b : UInt16) : (minU16 a b).toNat = min a.toNat b.toNat := by
  unfold minU16
  split_ifs with h
  · exact (Nat.min_eq_left (Nat.le_of_lt h)).symm
  · exact (Nat.min_eq_right (Nat.le_of_not_lt h)).symm

theorem one_le_toNat {a : UInt16} (h : a ≠ 0) : 0 < a.toNat :=
  Nat.pos_of_ne_zero fun hzero => h (UInt16.toNat_inj.mp hzero)

theorem negotiated_handleHello {s : LinkSession} (h : Negotiated s) (frame : McLinkFrame) :
    Negotiated (handleHello s frame).2 := by
  unfold handleHello
  split
  case h_2 => exact h.sameLink (sameLink_queueError s _ _)
  case h_1 p0 p1 c0 c1 m0 m1 hpayload =>
    dsimp only
    split_ifs with hzero
    · exact h.sameLink (sameLink_queueError s _ _)
    · rw [not_or] at hzero
      refine Negotiated.sameLink ?_ (sameLink_queueReady _)
      have hpayload := one_le_toNat hzero.1
      have hcredit := one_le_toNat hzero.2
      refine ⟨(linkReset_resetLinkState s).ready, ?_, ?_, ?_, rfl⟩
      · simp only [toNat_minU16]
        exact ⟨lt_min hpayload (by decide), min_le_right _ _⟩
      · simp only [toNat_minU16]
        exact ⟨lt_min hcredit (by decide), min_le_right _ _⟩
      · show ((ofLeBytes m0 m1 &&& mcLinkFirmwareSupportedRateMask) ||| 1) &&& 1 = 1
        rw [UInt16.and_comm]
        exact UInt16.toBitVec_inj.mp (by
          simp only [UInt16.toBitVec_and, UInt16.toBitVec_or]
          rw [BitVec.or_comm]
          ext i hi
          simp only [BitVec.getElem_and, BitVec.getElem_or]
          cases (UInt16.toBitVec 1)[i] <;> rfl)

theorem negotiated_handleReset {s : LinkSession} (h : Negotiated s) (frame : McLinkFrame) :
    Negotiated (handleReset s frame).2 := by
  have hreset : Negotiated { resetLinkState s with resetRequested := true } := by
    have := h.linkReset (linkReset_resetLinkState s)
    exact ⟨this.1, this.2, this.3, this.4, this.5⟩
  have hack := hreset.sameLink
    (sameLink_queueControlFrame _ mcLinkResetAck frame.seq frame.ack [])
  unfold handleReset
  dsimp only
  split_ifs
  · exact hack.sameLink (sameLink_queueReady _)
  · exact hack

theorem negotiated_handleDataC2m {s : LinkSession} (h : Negotiated s) (frame : McLinkFrame) :
    Negotiated (handleDataC2m s frame).2 := by
  unfold handleDataC2m
  dsimp only
  split_ifs
  · exact h.sameLink (sameLink_queueError s _ _)
  · refine Negotiated.sameLink ?_ (sameLink_queueAckC2m _ _)
    exact ⟨h.1, h.2, h.3, h.4, h.5⟩
  · exact h.sameLink (sameLink_queueError s _ _)
  · exact h.sameLink (sameLink_queueError s _ _)
  · exact h.sameLink (sameLink_queueError s _ _)
  · refine Negotiated.sameLink ?_ (sameLink_queueError _ _ _)
    exact ⟨h.1, h.2, h.3, h.4, h.5⟩
  · refine Negotiated.sameLink ?_ (sameLink_queueAckC2m _ _)
    exact ⟨h.1, h.2, h.3, h.4, h.5⟩

theorem negotiated_handleFrame {s : LinkSession} (h : Negotiated s) (frame : McLinkFrame) :
    Negotiated (handleFrame s frame).2 := by
  unfold handleFrame
  split_ifs
  · exact negotiated_handleHello h frame
  · exact negotiated_handleReset h frame
  · exact negotiated_handleDataC2m h frame
  · exact h.sameLink (sameLink_queueControlFrame s _ _ _ _)
  · exact h.sameLink (sameLink_queueControlFrame s _ _ _ _)
  · exact h.sameLink (sameLink_queueError s _ _)

theorem negotiated_mcLinkSessionReceiveBytes {s : LinkSession} (h : Negotiated s)
    (src : List UInt8) : Negotiated (mcLinkSessionReceiveBytes s src).2 :=
  mcLinkSessionReceiveBytes_preserves Negotiated (fun _ _ h => ⟨h.1, h.2, h.3, h.4, h.5⟩)
    (fun _ frame h => negotiated_handleFrame h frame) s src h

theorem negotiated_mcLinkSessionQueueServerTx {s : LinkSession} (h : Negotiated s)
    (serverTx : Ringbuf UInt8) : Negotiated (mcLinkSessionQueueServerTx s serverTx).2.1 := by
  rcases mcLinkSessionQueueServerTx_cases s serverTx with hq | hq | ⟨_, payload, _, _, _, _, _, _, hq⟩
  · rwa [hq]
  · rw [hq]
    exact ⟨h.1, h.2, h.3, h.4, h.5⟩
  · rw [hq]
    exact ⟨h.1, h.2, h.3, h.4, h.5⟩

theorem negotiated_mcLinkSessionResetAfterError {s : LinkSession} (h : Negotiated s)
    (code detail : UInt8) : Negotiated (mcLinkSessionResetAfterError s code detail).2 := by
  have herror := h.sameLink (sameLink_queueError s code detail)
  unfold mcLinkSessionResetAfterError
  dsimp only
  split_ifs
  · exact (herror.linkReset (linkReset_resetLinkStatePreservingControlTx _)).sameLink
      (sameLink_queueReady _)
  · exact herror

theorem sameLink_mcLinkSessionDropQueuedData (s : LinkSession) :
    SameLink s (mcLinkSessionDropQueuedData s) := by
  unfold mcLinkSessionDropQueuedData clearActiveTx
  dsimp only
  split_ifs <;> exact ⟨rfl, rfl, rfl, rfl, rfl, rfl, rfl, rfl, rfl, rfl⟩

theorem Negotiated.sessionStep {s : LinkSession} (h : Negotiated s) (op : SessionOp) :
    Negotiated (sessionStep s op).2 := by
  cases op with
  | receiveBytes src => exact negotiated_mcLinkSessionReceiveBytes h src
  | queueServerTx serverTx => exact negotiated_mcLinkSessionQueueServerTx h serverTx
  | creditConsumed len => exact h.sameLink (sameLink_queueAckC2m s 0)
  | resetAfterError code detail => exact negotiated_mcLinkSessionResetAfterError h code detail
  | dropQueuedData => exact h.sameLink (sameLink_mcLinkSessionDropQueuedData s)
  | readTx maxLen => exact h.sameLink (sameLink_mcLinkSessionReadTx s maxLen)
  | readRx maxLen => exact ⟨h.1, h.2, h.3, h.4, h.5⟩

theorem Negotiated.sessionRun {s : LinkSession} (h : Negotiated s) (ops : List SessionOp) :
    Negotiated (sessionRun s ops).2 := by
  induction ops generalizing s with
  | nil => exact h
  | cons op ops ih => exact ih (h.sessionStep op)

theorem mcLinkSessionReceiveBytes_decode {s : LinkSession} (hidle : s.parser.Idle)
    {segment : List UInt8} (hsegment : IsFrame mcLinkDelimiter segment)
    (hlen : segment.length ≤ mcLinkMaxFrameLen) {frame : McLinkFrame}
    (hdecode : mcLinkDecodeFrame segment = some frame) :
    mcLinkSessionReceiveBytes s segment = handleFrame s frame := by
  have hfeed := mcLinkParserFeed_decode hidle hsegment hlen hdecode
    (show ([] : List UInt8).length < mcLinkMaxFrameLen by decide)
  have hparser : ({ s.parser with buf := [] } : McLinkParser) = s.parser := by rw [← hidle.1]
  rw [List.append_nil, hparser] at hfeed
  rw [mcLinkSessionReceiveBytes, hfeed]
  show receiveFrames s _ = _
  rw [receiveFrames]
  dsimp only
  split_ifs with hok
  · have hhandled : (handleFrame s frame).2.parser.Idle := by
      rcases parser_handleFrame s frame with h | h
      · rwa [h]
      · rw [h]
        exact idle_mcLinkParserInit
    rw [mcLinkParserFeed_idle hhandled, receiveFrames, ← hok]
  · rw [← Bool.eq_false_of_not_eq_true hok]

theorem mcLinkSessionReceiveBytes_frame {s : LinkSession} (hidle : s.parser.Idle)
    {payload : List UInt8} (hlen : payload.length ≤ mcLinkMaxPayload) (type : UInt8)
    (seq ack : UInt16) :
    mcLinkSessionReceiveBytes s (mcLinkFrameBytes type seq ack payload) =
      handleFrame s { type := type, flags := 0, seq := seq, ack := ack, payload := payload } :=
  mcLinkSessionReceiveBytes_decode hidle (isFrame_mcLinkFrameBytes type seq ack payload)
    (length_mcLinkFrameBytes_le hlen type seq ack)
    (mcLinkDecodeFrame_mcLinkFrameBytes hlen type seq ack)

def LinkSession.accept (session : LinkSession) (payload : List UInt8) : LinkSession :=
  { session with
    rx := (session.rx.write payload).2
    rxSeqExpected := session.rxSeqExpected + 1, dataC2mFrames := session.dataC2mFrames + 1 }

theorem handleDataC2m_accept {s : LinkSession} (hready : s.ready = true) {frame : McLinkFrame}
    (hseq : frame.seq = s.rxSeqExpected) (hne : frame.payload ≠ [])
    (hlen : frame.payload.length ≤ s.negotiatedPayload.toNat)
    (hfree : frame.payload.length ≤ s.rx.free) :
    handleDataC2m s frame = queueAckC2m (s.accept frame.payload) (s.rxSeqExpected + 1) := by
  have hdup : ¬ frame.seq = s.rxSeqExpected - 1 := by
    rw [hseq]
    intro heq
    have := congrArg UInt16.toNat heq
    have hlt := s.rxSeqExpected.toNat_lt
    rw [UInt16.toNat_sub, UInt16.toNat_one] at this
    omega
  have hwrite := (Ringbuf.write_of_le hfree).1
  have hpos := List.length_pos_of_ne_nil hne
  unfold handleDataC2m
  dsimp only
  rw [if_neg (by simp [hready]), if_neg hdup, if_neg (by simp [hseq]), if_neg (by omega),
    if_neg (by omega), if_neg (by simp [hwrite])]
  rfl

theorem handleDataC2m_duplicate {s : LinkSession} (hready : s.ready = true) {frame : McLinkFrame}
    (hseq : frame.seq = s.rxSeqExpected - 1) :
    handleDataC2m s frame =
      queueAckC2m { s with c2mDuplicateFrames := s.c2mDuplicateFrames + 1 } s.rxSeqExpected := by
  unfold handleDataC2m
  rw [if_neg (by simp [hready]), if_pos hseq]

theorem handleFrame_dataC2m (s : LinkSession) {frame : McLinkFrame}
    (htype : frame.type = mcLinkDataC2m) : handleFrame s frame = handleDataC2m s frame := by
  rw [handleFrame, htype]
  rfl

theorem handleFrame_reset (s : LinkSession) {frame : McLinkFrame}
    (htype : frame.type = mcLinkReset) : handleFrame s frame = handleReset s frame := by
  rw [handleFrame, htype]
  rfl

theorem txRel_resetLinkState {s : LinkSession} {m : TxMux} (h : TxRel s m) :
    TxRel (resetLinkState s) ((m.forget .data).forget .control) := by
  have hstart : TxRel { s with
      rxSeqExpected := 0, txSeqNext := 0, ready := true, parser := mcLinkParserInit } m :=
    h.congr ⟨rfl, rfl, rfl, rfl, rfl, rfl⟩
  have hpreserving : TxRel (resetLinkStatePreservingControlTx s) (m.forget .data) :=
    hstart.dropDataTx.congr ⟨rfl, rfl, rfl, rfl, rfl, rfl⟩
  exact hpreserving.dropControlTx

theorem controlTx_resetLinkState {s : LinkSession} (h : s.activeTxQueue = none) :
    (resetLinkState s).controlTx = .init mcLinkSessionTxCap := by
  simp [resetLinkState, resetLinkStatePreservingControlTx, dropDataTx, dropControlTx, h,
    clearActiveTx]

def resetAnswers (s : LinkSession) (frame : McLinkFrame) : List (List UInt8) :=
  [mcLinkFrameBytes mcLinkResetAck frame.seq frame.ack [],
    mcLinkFrameBytes mcLinkReady 0 0 (readyPayload s)]

theorem readyPayload_congr {s t : LinkSession} (hpayload : t.negotiatedPayload = s.negotiatedPayload)
    (hcredit : t.creditCap = s.creditCap) (hmask : t.supportedRateMask = s.supportedRateMask)
    (hprofile : t.activeRateProfile = s.activeRateProfile) : readyPayload t = readyPayload s := by
  rw [readyPayload, hpayload, hcredit, hmask, hprofile, readyPayload]

theorem length_readyPayload (s : LinkSession) : (readyPayload s).length = 11 := rfl

theorem txRel_handleReset {s : LinkSession} {m : TxMux} (h : TxRel s m) (hidle : m.current = none)
    (frame : McLinkFrame) :
    ∃ m', TxRel (handleReset s frame).2 m' ∧ (handleReset s frame).1 = true ∧ m'.current = none ∧
      m'.sent = m.sent ∧ m'.waiting .data = [] ∧ m'.waiting .control = resetAnswers s frame := by
  -- With no frame half sent, both answers to a reset find room and nothing else is queued.
  have hreset := linkReset_resetLinkState s
  have hcontrol := controlTx_resetLinkState (h.activeTxQueue_eq_none.mpr hidle)
  obtain ⟨t, ht⟩ : ∃ t, t = { resetLinkState s with resetRequested := true } := ⟨_, rfl⟩
  have hrel : TxRel t ((m.forget .data).forget .control) := by
    rw [ht]
    exact (txRel_resetLinkState h).congr ⟨rfl, rfl, rfl, rfl, rfl, rfl⟩
  have hfree : t.controlTx.free = mcLinkSessionTxCap := by
    rw [ht]
    show (resetLinkState s).controlTx.free = _
    rw [hcontrol, Ringbuf.free_init]
  obtain ⟨ack, hack⟩ : ∃ ack, ack = mcLinkFrameBytes mcLinkResetAck frame.seq frame.ack [] :=
    ⟨_, rfl⟩
  have hackLen : ack.length ≤ mcLinkMaxFrameLen := by
    rw [hack]
    exact length_mcLinkFrameBytes_le (Nat.zero_le _) _ _ _
  have hackFree : ack.length ≤ t.controlTx.free := by
    rw [hfree]
    exact hackLen.trans (by decide)
  have hqueueAck : queueControlFrame t mcLinkResetAck frame.seq frame.ack [] =
      (true, t.enqueue .control ack) := by
    rw [queueControlFrame, queueFrame_eq, ← hack, if_pos ⟨Nat.zero_le _, hackFree⟩]
  have hpayload : readyPayload (t.enqueue .control ack) = readyPayload s := by
    rw [ht]
    exact readyPayload_congr hreset.negotiatedPayload hreset.creditCap hreset.supportedRateMask
      hreset.activeRateProfile
  obtain ⟨ready, hready⟩ : ∃ ready, ready = mcLinkFrameBytes mcLinkReady 0 0 (readyPayload s) :=
    ⟨_, rfl⟩
  have hreadyLen : ready.length ≤ mcLinkMaxFrameLen := by
    rw [hready]
    exact length_mcLinkFrameBytes_le (by simp [length_readyPayload, mcLinkMaxPayload]) _ _ _
  have hreadyFree : ready.length ≤ (t.enqueue .control ack).controlTx.free := by
    have hspace : (t.controlTx.write ack).2.free + ack.length = t.controlTx.free :=
      Ringbuf.free_write_of_le hackFree
    show ready.length ≤ (t.controlTx.write ack).2.free
    simp only [mcLinkMaxFrameLen, mcLinkMaxEncodedLen, mcLinkSessionTxCap] at hfree hackLen hreadyLen
    omega
  have hqueueReady : queueReady (t.enqueue .control ack) =
      (true, (t.enqueue .control ack).enqueue .control ready) := by
    rw [queueReady, queueControlFrame, queueFrame_eq, hpayload, ← hready,
      if_pos ⟨by simp [length_readyPayload, mcLinkMaxPayload], hreadyFree⟩]
  have hhandle : handleReset s frame =
      (true, (t.enqueue .control ack).enqueue .control ready) := by
    unfold handleReset
    rw [← ht]
    dsimp only
    rw [hqueueAck]
    exact hqueueReady
  rw [hhandle]
  refine ⟨_, (hrel.enqueue (hack ▸ txFrame_control (Nat.zero_le _) (by decide) _ _) hackFree).enqueue
    (hready ▸ txFrame_control (by simp [length_readyPayload, mcLinkMaxPayload]) (by decide) _ _)
    hreadyFree, rfl, hidle, rfl, ?_, ?_⟩
  · simp [Mux.enqueue, Mux.forget]
  · simp [Mux.enqueue, Mux.forget, resetAnswers, hack, hready]

theorem linkReset_handleReset (s : LinkSession) (frame : McLinkFrame) :
    LinkReset { s with resetRequested := true } (handleReset s frame).2 := by
  have hreset := linkReset_resetLinkState s
  have hstart : LinkReset { s with resetRequested := true }
      { resetLinkState s with resetRequested := true } :=
    ⟨hreset.1, hreset.2, hreset.3, hreset.4, hreset.5, hreset.6, hreset.7, hreset.8, hreset.9, rfl⟩
  have hack := hstart.sameLink
    (sameLink_queueControlFrame _ mcLinkResetAck frame.seq frame.ack [])
  unfold handleReset
  dsimp only
  split_ifs
  · exact hack.sameLink (sameLink_queueReady _)
  · exact hack

end StarrySky.Firmware
