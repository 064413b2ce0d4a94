import StarrySky.Base.Ringbuf
import StarrySky.Link.FrameLemmas
import StarrySky.Link.Parser

/-! The firmware's link session, `firmware/mc_link_session.c`. -/

namespace StarrySky.Firmware
open StarrySky.Base StarrySky.Link

abbrev mcLinkHello : UInt8 := 0x01
abbrev mcLinkReady : UInt8 := 0x02
abbrev mcLinkDataC2m : UInt8 := 0x03
abbrev mcLinkAckC2m : UInt8 := 0x04
abbrev mcLinkDataM2c : UInt8 := 0x05
abbrev mcLinkRateProbe : UInt8 := 0x06
abbrev mcLinkRateProbeAck : UInt8 := 0x07
abbrev mcLinkReset : UInt8 := 0x08
abbrev mcLinkResetAck : UInt8 := 0x09
abbrev mcLinkError : UInt8 := 0x0a
abbrev mcLinkPing : UInt8 := 0x0b
abbrev mcLinkPong : UInt8 := 0x0c

abbrev mcLinkErrBadLength : UInt8 := 2
abbrev mcLinkErrUnexpectedType : UInt8 := 4
abbrev mcLinkErrSequence : UInt8 := 5
abbrev mcLinkErrRxOverflow : UInt8 := 6
abbrev mcLinkErrProtocolState : UInt8 := 7

abbrev mcLinkDefaultPayload : UInt16 := 497
abbrev mcLinkInitialCredit : UInt16 := 512
abbrev mcLinkFirmwareSupportedRateMask : UInt16 := 0x03ff
abbrev mcLinkSessionTxCap : ℕ := mcLinkMaxFrameLen * 4

/-- The two transmit rings. No active queue (`MC_LINK_SESSION_TX_NONE`) is `none`. -/
inductive TxQueue
  | data | control
deriving DecidableEq, Repr

/-- History that no code reads: the frames written to each transmit ring and the
errors raised, oldest first. -/
structure SessionHistory where
  queuedData : List (List UInt8)
  queuedControl : List (List UInt8)
  raised : List (UInt8 × UInt8)
deriving DecidableEq

/-- `mc_link_session_t`, with the receive ring it points to and a history. -/
structure LinkSession where
  parser : McLinkParser
  rx : Ringbuf UInt8
  tx : Ringbuf UInt8
  controlTx : Ringbuf UInt8
  rxSeqExpected : UInt16
  txSeqNext : UInt16
  negotiatedPayload : UInt16
  creditCap : UInt16
  supportedRateMask : UInt16
  activeRateProfile : UInt8
  ready : Bool
  resetRequested : Bool
  activeTxQueue : Option TxQueue
  activeTxRemaining : ℕ
  dataC2mFrames : UInt32
  dataM2cFrames : UInt32
  errorCount : UInt32
  c2mAckFrames : UInt32
  c2mDuplicateFrames : UInt32
  history : SessionHistory
deriving DecidableEq

def LinkSession.ring (session : LinkSession) : TxQueue → Ringbuf UInt8
  | .data => session.tx
  | .control => session.controlTx

def LinkSession.setRing (session : LinkSession) (queue : TxQueue) (ring : Ringbuf UInt8) :
    LinkSession :=
  match queue with
  | .data => { session with tx := ring }
  | .control => { session with controlTx := ring }

def SessionHistory.queued (history : SessionHistory) : TxQueue → List (List UInt8)
  | .data => history.queuedData
  | .control => history.queuedControl

def SessionHistory.logQueued (history : SessionHistory) (queue : TxQueue) (frame : List UInt8) :
    SessionHistory :=
  match queue with
  | .data => { history with queuedData := history.queuedData ++ [frame] }
  | .control => { history with queuedControl := history.queuedControl ++ [frame] }

def LinkSession.enqueue (session : LinkSession) (queue : TxQueue) (frame : List UInt8) :
    LinkSession :=
  { session.setRing queue ((session.ring queue).write frame).2 with
    history := session.history.logQueued queue frame }

def LinkSession.countError (session : LinkSession) : LinkSession :=
  { session with errorCount := session.errorCount + 1 }

def minU16 (a b : UInt16) : UInt16 := if a < b then a else b

def queueFrame (session : LinkSession) (queue : TxQueue) (type : UInt8) (seq ack : UInt16)
    (payload : List UInt8) : Bool × LinkSession :=
  match mcLinkEncode type seq ack payload mcLinkMaxFrameLen with
  | none => (false, session.countError)
  | some frame =>
    if (session.ring queue).free < frame.length then (false, session.countError)
    else (((session.ring queue).write frame).1 = frame.length, session.enqueue queue frame)

def queueControlFrame (session : LinkSession) (type : UInt8) (seq ack : UInt16)
    (payload : List UInt8) : Bool × LinkSession :=
  queueFrame session .control type seq ack payload

def queueDataFrame (session : LinkSession) (type : UInt8) (seq ack : UInt16)
    (payload : List UInt8) : Bool × LinkSession :=
  queueFrame session .data type seq ack payload

def readyPayload (session : LinkSession) : List UInt8 :=
  leBytes session.negotiatedPayload ++ leBytes session.creditCap ++ leBytes session.creditCap ++
    leBytes session.supportedRateMask ++ [session.activeRateProfile] ++ leBytes 0

def queueReady (session : LinkSession) : Bool × LinkSession :=
  queueControlFrame session mcLinkReady 0 0 (readyPayload session)

def rxFreeCredit (session : LinkSession) : UInt16 :=
  if session.rx.free > 0xffff then 0xffff else UInt16.ofNat session.rx.free

def queueAckC2m (session : LinkSession) (ack : UInt16) : Bool × LinkSession :=
  let queued := queueControlFrame session mcLinkAckC2m 0 ack (leBytes (rxFreeCredit session))
  if queued.1 then (true, { queued.2 with c2mAckFrames := queued.2.c2mAckFrames + 1 })
  else (false, queued.2)

def LinkSession.raise (session : LinkSession) (code detail : UInt8) : LinkSession :=
  { session.countError with
    history := { session.history with raised := session.history.raised ++ [(code, detail)] } }

def queueError (session : LinkSession) (code detail : UInt8) : Bool × LinkSession :=
  queueControlFrame (session.raise code detail) mcLinkError 0 0 [code, detail]

def peekRingbuf (rb : Ringbuf UInt8) (len : ℕ) : Option (List UInt8) :=
  if len ≤ rb.len then some (rb.items.take len) else none

def clearActiveTx (session : LinkSession) : LinkSession :=
  { session with activeTxQueue := none, activeTxRemaining := 0 }

def nextFrameLen (tx : Ringbuf UInt8) : Option ℕ := firstFrameLen mcLinkDelimiter tx.items

def mcLinkSessionInit (rx : Ringbuf UInt8) : LinkSession :=
  { parser := mcLinkParserInit, rx := rx
    tx := .init mcLinkSessionTxCap, controlTx := .init mcLinkSessionTxCap
    rxSeqExpected := 0, txSeqNext := 0
    negotiatedPayload := mcLinkDefaultPayload, creditCap := mcLinkInitialCredit
    supportedRateMask := mcLinkFirmwareSupportedRateMask, activeRateProfile := 0
    ready := true, resetRequested := false, activeTxQueue := none, activeTxRemaining := 0
    dataC2mFrames := 0, dataM2cFrames := 0, errorCount := 0, c2mAckFrames := 0
    c2mDuplicateFrames := 0
    history := { queuedData := [], queuedControl := [], raised := [] } }

/-- Forget the queued data frames, all but the tail of one that is being sent. -/
def dropDataTx (session : LinkSession) : LinkSession :=
  if session.activeTxQueue = some .data then
    { session with tx := session.tx.truncate session.activeTxRemaining }
  else { session with tx := .init mcLinkSessionTxCap }

def resetLinkStatePreservingControlTx (session : LinkSession) : LinkSession :=
  let session := { session with
    rxSeqExpected := 0, txSeqNext := 0, ready := true, parser := mcLinkParserInit }
  let session := dropDataTx session
  { session with rx := session.rx.drop session.rx.len }

/-- The second half of `reset_link_state`: the same for the control ring. -/
def dropControlTx (session : LinkSession) : LinkSession :=
  if session.activeTxQueue = some .control then
    { session with controlTx := session.controlTx.truncate session.activeTxRemaining }
  else
    let session := { session with controlTx := .init mcLinkSessionTxCap }
    if session.activeTxQueue ≠ some .data then clearActiveTx session else session

def resetLinkState (session : LinkSession) : LinkSession :=
  dropControlTx (resetLinkStatePreservingControlTx session)

def handleHello (session : LinkSession) (frame : McLinkFrame) : Bool × LinkSession :=
  match frame.payload with
  | [p0, p1, c0, c1, m0, m1] =>
    let requestedPayload := ofLeBytes p0 p1
    let requestedCredit := ofLeBytes c0 c1
    let requestedRateMask := ofLeBytes m0 m1
    if requestedPayload = 0 ∨ requestedCredit = 0 then
      queueError session mcLinkErrBadLength 0
    else
      queueReady { resetLinkState session with
        negotiatedPayload := minU16 requestedPayload mcLinkDefaultPayload
        creditCap := minU16 requestedCredit mcLinkInitialCredit
        supportedRateMask := (requestedRateMask &&& mcLinkFirmwareSupportedRateMask) ||| 1
        activeRateProfile := 0 }
  | _ => queueError session mcLinkErrBadLength 0

def handleReset (session : LinkSession) (frame : McLinkFrame) : Bool × LinkSession :=
  let session := { resetLinkState session with resetRequested := true }
  let queued := queueControlFrame session mcLinkResetAck frame.seq frame.ack []
  if queued.1 then queueReady queued.2 else (false, queued.2)

def handleDataC2m (session : LinkSession) (frame : McLinkFrame) : Bool × LinkSession :=
  if !session.ready then queueError session mcLinkErrProtocolState frame.type
  else if frame.seq = session.rxSeqExpected - 1 then
    queueAckC2m { session with c2mDuplicateFrames := session.c2mDuplicateFrames + 1 }
      session.rxSeqExpected
  else if frame.seq ≠ session.rxSeqExpected then
    (false, (queueError session mcLinkErrSequence frame.seq.toUInt8).2)
  else if frame.payload.length = 0 ∨ frame.payload.length > session.negotiatedPayload.toNat then
    queueError session mcLinkErrBadLength (UInt8.ofNat frame.payload.length)
  else if session.rx.free < frame.payload.length then
    (false, (queueError session mcLinkErrRxOverflow (UInt8.ofNat frame.payload.length)).2)
  else
    let written := session.rx.write frame.payload
    let session := { session with rx := written.2 }
    if written.1 ≠ frame.payload.length then
      (false, (queueError session mcLinkErrRxOverflow (UInt8.ofNat frame.payload.length)).2)
    else
      let session := { session with
        rxSeqExpected := session.rxSeqExpected + 1, dataC2mFrames := session.dataC2mFrames + 1 }
      queueAckC2m session session.rxSeqExpected

def handleFrame (session : LinkSession) (frame : McLinkFrame) : Bool × LinkSession :=
  if frame.type = mcLinkHello then handleHello session frame
  else if frame.type = mcLinkReset then handleReset session frame
  else if frame.type = mcLinkDataC2m then handleDataC2m session frame
  else if frame.type = mcLinkRateProbe then
    queueControlFrame session mcLinkRateProbeAck frame.seq frame.ack frame.payload
  else if frame.type = mcLinkPing then
    queueControlFrame session mcLinkPong frame.seq frame.ack frame.payload
  else queueError session mcLinkErrUnexpectedType frame.type

def mcLinkSessionCreditConsumed (session : LinkSession) (_consumedLen : ℕ) : LinkSession :=
  (queueAckC2m session 0).2

def mcLinkSessionResetAfterError (session : LinkSession) (code detail : UInt8) :
    Bool × LinkSession :=
  let queued := queueError session code detail
  if queued.1 then queueReady (resetLinkStatePreservingControlTx queued.2) else (false, queued.2)

/-- The length of the payload `mc_link_session_queue_server_tx` takes. -/
def serverTxLen (session : LinkSession) (serverTx : Ringbuf UInt8) : ℕ :=
  let maxPayload :=
    if session.negotiatedPayload = 0 ∨ session.negotiatedPayload.toNat > mcLinkMaxPayload
    then mcLinkMaxPayload else session.negotiatedPayload.toNat
  if serverTx.len > maxPayload then maxPayload else serverTx.len

/-- Returns the session and what is left of the server's ring. -/
def mcLinkSessionQueueServerTx (session : LinkSession) (serverTx : Ringbuf UInt8) :
    Bool × LinkSession × Ringbuf UInt8 :=
  if !session.ready then (false, session, serverTx)
  else
    let n := serverTxLen session serverTx
    if n = 0 then (true, session, serverTx)
    else
      match peekRingbuf serverTx n with
      | none => (false, session, serverTx)
      | some payload =>
        let queued := queueDataFrame session mcLinkDataM2c session.txSeqNext session.rxSeqExpected
          payload
        if queued.1 then
          (true,
            { queued.2 with
              txSeqNext := queued.2.txSeqNext + 1, dataM2cFrames := queued.2.dataM2cFrames + 1 },
            serverTx.drop n)
        else (false, queued.2, serverTx)

/-- The choice at the start of `mc_link_session_read_tx`: control frames first. -/
def selectActiveTx (session : LinkSession) : LinkSession :=
  if session.activeTxQueue = none then
    match nextFrameLen session.controlTx, nextFrameLen session.tx with
    | some frameLen, _ =>
      { session with activeTxQueue := some .control, activeTxRemaining := frameLen }
    | none, some frameLen =>
      { session with activeTxQueue := some .data, activeTxRemaining := frameLen }
    | none, none => session
  else session

def mcLinkSessionReadTx (session : LinkSession) (maxLen : ℕ) : List UInt8 × LinkSession :=
  if maxLen = 0 then ([], session)
  else
    let session := selectActiveTx session
    match session.activeTxQueue with
    | none => ([], session)
    | some queue =>
      let ring := session.ring queue
      if session.activeTxRemaining = 0 ∨ ring.len = 0 then ([], clearActiveTx session)
      else
        let toRead := min session.activeTxRemaining maxLen
        if toRead > ring.len then ([], clearActiveTx session)
        else
          let taken := ring.read toRead
          let remaining := session.activeTxRemaining - taken.1.length
          let session := { session.setRing queue taken.2 with activeTxRemaining := remaining }
          (taken.1, if remaining = 0 then clearActiveTx session else session)

def mcLinkSessionTakeResetRequested (session : LinkSession) : Bool × LinkSession :=
  (session.resetRequested, { session with resetRequested := false })

def mcLinkSessionDropQueuedData (session : LinkSession) : LinkSession :=
  if session.activeTxQueue = some .data then
    { session with tx := session.tx.truncate session.activeTxRemaining }
  else
    let session := { session with tx := .init mcLinkSessionTxCap }
    if session.activeTxQueue ≠ some .control then clearActiveTx session else session

/-- Nothing but the transmit half, the counters and the history differs. -/
structure SameLink (s t : LinkSession) : Prop where
  parser : t.parser = s.parser
  rx : t.rx = s.rx
  rxSeqExpected : t.rxSeqExpected = s.rxSeqExpected
  txSeqNext : t.txSeqNext = s.txSeqNext
  negotiatedPayload : t.negotiatedPayload = s.negotiatedPayload
  creditCap : t.creditCap = s.creditCap
  supportedRateMask : t.supportedRateMask = s.supportedRateMask
  activeRateProfile : t.activeRateProfile = s.activeRateProfile
  ready : t.ready = s.ready
  resetRequested : t.resetRequested = s.resetRequested

theorem SameLink.refl (s : LinkSession) : SameLink s s :=
  ⟨rfl, rfl, rfl, rfl, rfl, rfl, rfl, rfl, rfl, rfl⟩

theorem SameLink.trans {s t u : LinkSession} (h : SameLink s t) (h' : SameLink t u) :
    SameLink s u :=
  ⟨h'.parser.trans h.parser, h'.rx.trans h.rx, h'.rxSeqExpected.trans h.rxSeqExpected,
    h'.txSeqNext.trans h.txSeqNext, h'.negotiatedPayload.trans h.negotiatedPayload,
    h'.creditCap.trans h.creditCap, h'.supportedRateMask.trans h.supportedRateMask,
    h'.activeRateProfile.trans h.activeRateProfile, h'.ready.trans h.ready,
    h'.resetRequested.trans h.resetRequested⟩

theorem sameLink_enqueue (s : LinkSession) (queue : TxQueue) (frame : List UInt8) :
    SameLink s (s.enqueue queue frame) := by
  cases queue <;> exact ⟨rfl, rfl, rfl, rfl, rfl, rfl, rfl, rfl, rfl, rfl⟩

theorem queueFrame_eq (s : LinkSession) (queue : TxQueue) (type : UInt8) (seq ack : UInt16)
    (payload : List UInt8) :
    queueFrame s queue type seq ack payload =
      if payload.length ≤ mcLinkMaxPayload ∧
          (mcLinkFrameBytes type seq ack payload).length ≤ (s.ring queue).free
      then (true, s.enqueue queue (mcLinkFrameBytes type seq ack payload))
      else (false, s.countError) := by
  rw [queueFrame]
  split
  case h_1 h =>
    have hlong : ¬ payload.length ≤ mcLinkMaxPayload := by
      intro hle
      rw [mcLinkEncode_of_le hle (Nat.le_refl _)] at h
      contradiction
    rw [if_neg fun h' => hlong h'.1]
  case h_2 frame h =>
    obtain ⟨hle, rfl⟩ := mcLinkEncode_eq_some h
    by_cases hfree : (mcLinkFrameBytes type seq ack payload).length ≤ (s.ring queue).free
    · rw [if_neg (Nat.not_lt.mpr hfree), if_pos ⟨hle, hfree⟩]
      simp [(Ringbuf.write_of_le hfree).1]
    · rw [if_pos (Nat.lt_of_not_le hfree), if_neg fun h' => hfree h'.2]

def ackFrame (s : LinkSession) (ack : UInt16) : List UInt8 :=
  mcLinkFrameBytes mcLinkAckC2m 0 ack (leBytes (rxFreeCredit s))

def LinkSession.enqueueAck (session : LinkSession) (ack : UInt16) : LinkSession :=
  { session.enqueue .control (ackFrame session ack) with
    c2mAckFrames := session.c2mAckFrames + 1 }

theorem queueAckC2m_eq (s : LinkSession) (ack : UInt16) :
    queueAckC2m s ack =
      if (ackFrame s ack).length ≤ s.controlTx.free then (true, s.enqueueAck ack)
      else (false, s.countError) := by
  have hqueue := queueFrame_eq s .control mcLinkAckC2m 0 ack (leBytes (rxFreeCredit s))
  by_cases hfree : (ackFrame s ack).length ≤ s.controlTx.free
  · rw [if_pos ⟨by simp [mcLinkMaxPayload], hfree⟩] at hqueue
    rw [if_pos hfree, queueAckC2m, queueControlFrame, hqueue]
    rfl
  · rw [if_neg fun h => hfree h.2] at hqueue
    rw [if_neg hfree, queueAckC2m, queueControlFrame, hqueue]
    rfl

theorem queueAckC2m_cases (s : LinkSession) (ack : UInt16) :
    (ackFrame s ack).length ≤ s.controlTx.free ∧ queueAckC2m s ack = (true, s.enqueueAck ack) ∨
      queueAckC2m s ack = (false, s.countError) := by
  rw [queueAckC2m_eq]
  split_ifs with hfree
  · exact .inl ⟨hfree, rfl⟩
  · exact .inr rfl

theorem sameLink_queueFrame (s : LinkSession) (queue : TxQueue) (type : UInt8)
    (seq ack : UInt16) (payload : List UInt8) :
    SameLink s (queueFrame s queue type seq ack payload).2 := by
  rw [queueFrame_eq]
  split_ifs
  · exact sameLink_enqueue s queue _
  · exact ⟨rfl, rfl, rfl, rfl, rfl, rfl, rfl, rfl, rfl, rfl⟩

theorem sameLink_queueControlFrame (s : LinkSession) (type : UInt8) (seq ack : UInt16)
    (payload : List UInt8) : SameLink s (queueControlFrame s type seq ack payload).2 :=
  sameLink_queueFrame s .control type seq ack payload

theorem sameLink_queueReady (s : LinkSession) : SameLink s (queueReady s).2 :=
  sameLink_queueControlFrame s _ _ _ _

theorem sameLink_queueAckC2m (s : LinkSession) (ack : UInt16) :
    SameLink s (queueAckC2m s ack).2 := by
  have h := sameLink_queueControlFrame s mcLinkAckC2m 0 ack (leBytes (rxFreeCredit s))
  unfold queueAckC2m
  dsimp only
  split_ifs
  · exact ⟨h.1, h.2, h.3, h.4, h.5, h.6, h.7, h.8, h.9, h.10⟩
  · exact h

theorem sameLink_queueError (s : LinkSession) (code detail : UInt8) :
    SameLink s (queueError s code detail).2 := by
  have h := sameLink_queueControlFrame (s.raise code detail) mcLinkError 0 0 [code, detail]
  exact ⟨h.1, h.2, h.3, h.4, h.5, h.6, h.7, h.8, h.9, h.10⟩

theorem sameLink_selectActiveTx (s : LinkSession) : SameLink s (selectActiveTx s) := by
  unfold selectActiveTx
  split_ifs
  · split <;> exact ⟨rfl, rfl, rfl, rfl, rfl, rfl, rfl, rfl, rfl, rfl⟩
  · exact .refl s

theorem sameLink_mcLinkSessionReadTx (s : LinkSession) (maxLen : ℕ) :
    SameLink s (mcLinkSessionReadTx s maxLen).2 := by
  have hclear : ∀ t, SameLink t (clearActiveTx t) := fun t =>
    ⟨rfl, rfl, rfl, rfl, rfl, rfl, rfl, rfl, rfl, rfl⟩
  have hring : ∀ (t : LinkSession) (q : TxQueue) (ring : Ringbuf UInt8) (remaining : ℕ),
      SameLink t { t.setRing q ring with activeTxRemaining := remaining } := by
    rintro t (_ | _) ring remaining <;> exact ⟨rfl, rfl, rfl, rfl, rfl, rfl, rfl, rfl, rfl, rfl⟩
  unfold mcLinkSessionReadTx
  split_ifs
  · exact .refl s
  · refine (sameLink_selectActiveTx s).trans ?_
    dsimp only
    split
    · exact .refl _
    · split_ifs
      · exact hclear _
      · exact hclear _
      · exact (hring _ _ _ _).trans (hclear _)
      · exact hring _ _ _ _

@[simp] theorem parser_dropDataTx (s : LinkSession) : (dropDataTx s).parser = s.parser := by
  unfold dropDataTx
  split_ifs <;> rfl

@[simp] theorem parser_dropControlTx (s : LinkSession) : (dropControlTx s).parser = s.parser := by
  unfold dropControlTx clearActiveTx
  dsimp only
  split_ifs <;> rfl

theorem parser_resetLinkState (s : LinkSession) :
    (resetLinkState s).parser = mcLinkParserInit := by
  simp [resetLinkState, resetLinkStatePreservingControlTx]

theorem parser_handleHello (s : LinkSession) (frame : McLinkFrame) :
    (handleHello s frame).2.parser = s.parser ∨
      (handleHello s frame).2.parser = mcLinkParserInit := by
  unfold handleHello
  split
  · dsimp only
    split_ifs
    · exact .inl (sameLink_queueError s _ _).parser
    · exact .inr ((sameLink_queueReady _).parser.trans (parser_resetLinkState s))
  · exact .inl (sameLink_queueError s _ _).parser

theorem parser_handleReset (s : LinkSession) (frame : McLinkFrame) :
    (handleReset s frame).2.parser = mcLinkParserInit := by
  have h := (sameLink_queueControlFrame { resetLinkState s with resetRequested := true }
    mcLinkResetAck frame.seq frame.ack []).parser.trans (parser_resetLinkState s)
  unfold handleReset
  dsimp only
  split_ifs
  · exact (sameLink_queueReady _).parser.trans h
  · exact h

theorem parser_handleDataC2m (s : LinkSession) (frame : McLinkFrame) :
    (handleDataC2m s frame).2.parser = s.parser := by
  unfold handleDataC2m
  dsimp only
  split_ifs
  · exact (sameLink_queueError s _ _).parser
  · exact (sameLink_queueAckC2m _ _).parser
  · exact (sameLink_queueError s _ _).parser
  · exact (sameLink_queueError s _ _).parser
  · exact (sameLink_queueError s _ _).parser
  · exact (sameLink_queueError _ _ _).parser
  · exact (sameLink_queueAckC2m _ _).parser

theorem parser_handleFrame (s : LinkSession) (frame : McLinkFrame) :
    (handleFrame s frame).2.parser = s.parser ∨
      (handleFrame s frame).2.parser = mcLinkParserInit := by
  unfold handleFrame
  split_ifs
  · exact parser_handleHello s frame
  · exact .inr (parser_handleReset s frame)
  · exact .inl (parser_handleDataC2m s frame)
  · exact .inl (sameLink_queueControlFrame s _ _ _ _).parser
  · exact .inl (sameLink_queueControlFrame s _ _ _ _).parser
  · exact .inl (sameLink_queueError s _ _).parser

theorem length_buf_handleFrame_le (s : LinkSession) (frame : McLinkFrame) :
    (handleFrame s frame).2.parser.buf.length ≤ s.parser.buf.length := by
  rcases parser_handleFrame s frame with h | h
  · exact Nat.le_of_eq (by rw [h])
  · rw [h]
    exact Nat.zero_le _

/-- The loop of `mc_link_session_receive_bytes`, at a parse result. -/
def receiveFrames (session : LinkSession) (found : Option McLinkFrame) : Bool × LinkSession :=
  match found with
  | none => (true, session)
  | some frame =>
    let handled := handleFrame session frame
    if handled.1 then
      let parsed := mcLinkParserFeed handled.2.parser []
      receiveFrames { handled.2 with parser := parsed.2 } parsed.1
    else (false, handled.2)
termination_by session.parser.buf.length + parsedLen found
decreasing_by
  have hparsed := parsedLen_mcLinkParserFeed (handleFrame session frame).2.parser []
  have hhandled := length_buf_handleFrame_le session frame
  simp only [parsedLen_some, List.length_nil] at hparsed hhandled ⊢
  omega

def mcLinkSessionReceiveBytes (session : LinkSession) (src : List UInt8) : Bool × LinkSession :=
  let parsed := mcLinkParserFeed session.parser src
  receiveFrames { session with parser := parsed.2 } parsed.1

/-- What every handled frame keeps, whatever the parser holds, every received byte
sequence keeps. -/
theorem mcLinkSessionReceiveBytes_preserves (P : LinkSession → Prop)
    (hparser : ∀ s parser, P s → P { s with parser := parser })
    (hframe : ∀ s frame, P s → P (handleFrame s frame).2) (s : LinkSession) (src : List UInt8)
    (h : P s) : P (mcLinkSessionReceiveBytes s src).2 := by
  have hloop : ∀ (t : LinkSession) (found : Option McLinkFrame), P t →
      P (receiveFrames t found).2 := by
    intro t found
    induction t, found using receiveFrames.induct with
    | case1 t =>
      intro ht
      rwa [receiveFrames]
    | case2 t frame handled hok parsed ih =>
      intro ht
      rw [receiveFrames, if_pos hok]
      exact ih (hparser _ _ (hframe t frame ht))
    | case3 t frame handled hok =>
      intro ht
      rw [receiveFrames, if_neg hok]
      exact hframe t frame ht
  exact hloop _ _ (hparser s _ h)

theorem serverTxLen_le (s : LinkSession) (serverTx : Ringbuf UInt8) :
    serverTxLen s serverTx ≤ serverTx.len ∧ serverTxLen s serverTx ≤ mcLinkMaxPayload := by
  unfold serverTxLen
  dsimp only
  split_ifs <;> omega

def LinkSession.enqueueData (session : LinkSession) (payload : List UInt8) : LinkSession :=
  { session.enqueue .data
      (mcLinkFrameBytes mcLinkDataM2c session.txSeqNext session.rxSeqExpected payload) with
    txSeqNext := session.txSeqNext + 1, dataM2cFrames := session.dataM2cFrames + 1 }

theorem mcLinkSessionQueueServerTx_cases (s : LinkSession) (serverTx : Ringbuf UInt8) :
    (mcLinkSessionQueueServerTx s serverTx).2 = (s, serverTx) ∨
    (mcLinkSessionQueueServerTx s serverTx).2 = (s.countError, serverTx) ∨
    ∃ n payload, 0 < n ∧ n = serverTxLen s serverTx ∧ payload = serverTx.items.take n ∧
      payload.length = n ∧ n ≤ mcLinkMaxPayload ∧
      (mcLinkFrameBytes mcLinkDataM2c s.txSeqNext s.rxSeqExpected payload).length ≤ s.tx.free ∧
      (mcLinkSessionQueueServerTx s serverTx).2 = (s.enqueueData payload, serverTx.drop n) := by
  have hle := serverTxLen_le s serverTx
  unfold mcLinkSessionQueueServerTx
  dsimp only
  split_ifs with hready hzero
  · exact .inl rfl
  · exact .inl rfl
  · obtain ⟨payload, hpayload⟩ :
        ∃ payload, payload = serverTx.items.take (serverTxLen s serverTx) := ⟨_, rfl⟩
    have hlen : payload.length = serverTxLen s serverTx := by
      rw [hpayload, List.length_take]
      exact Nat.min_eq_left hle.1
    have hpeek : peekRingbuf serverTx (serverTxLen s serverTx) = some payload := by
      rw [peekRingbuf, if_pos hle.1, hpayload]
    rw [hpeek]
    dsimp only
    by_cases hfree : (mcLinkFrameBytes mcLinkDataM2c s.txSeqNext s.rxSeqExpected payload).length ≤
        s.tx.free
    · have hqueue : queueDataFrame s mcLinkDataM2c s.txSeqNext s.rxSeqExpected payload =
          (true, s.enqueue .data
            (mcLinkFrameBytes mcLinkDataM2c s.txSeqNext s.rxSeqExpected payload)) := by
        rw [queueDataFrame, queueFrame_eq, if_pos ⟨hlen ▸ hle.2, hfree⟩]
      rw [hqueue]
      exact .inr (.inr ⟨_, payload, Nat.pos_of_ne_zero hzero, rfl, hpayload, hlen, hle.2, hfree,
        rfl⟩)
    · have hqueue : queueDataFrame s mcLinkDataM2c s.txSeqNext s.rxSeqExpected payload =
          (false, s.countError) := by
        rw [queueDataFrame, queueFrame_eq, if_neg fun h => hfree h.2]
      rw [hqueue]
      exact .inr (.inl rfl)

end StarrySky.Firmware
