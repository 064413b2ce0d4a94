import StarrySky.Base.StopAndWait
import StarrySky.Bridge.C2mFilter
import StarrySky.Bridge.Handshake
import StarrySky.Bridge.Session
import StarrySky.Firmware.DataC2m

/-! Client bytes on their way to the Minecraft server: the bridge's sender and the
firmware's session over two channels that may lose any frame. -/

namespace StarrySky.System
open StarrySky.Base StarrySky.Link StarrySky.Firmware
open StarrySky.Bridge (IoError C2mSender sendNextFrame sequenceExhausted handleAckC2m)

/-- The two ends and the frames between them, oldest first. As history: the bytes put
into `pending_tcp`, those removed from it and those taken from the receive ring. -/
structure C2mSystem where
  sender : C2mSender
  session : LinkSession
  toFirmware : List (List UInt8)
  toBridge : List (List UInt8)
  pushed : List UInt8
  removed : List UInt8
  taken : List UInt8
deriving DecidableEq

def C2mSystem.written (c : C2mSystem) : List UInt8 := c.taken ++ c.session.rx.items

inductive C2mOp
  | push (data : List UInt8)
  | pushFiltered (data : List UInt8)
  | send (now : ℕ)
  | retransmit (now timeout : ℕ)
  | loseToFirmware (index : ℕ)
  | loseToBridge (index : ℕ)
  | firmwareReceive
  | takeRx (maxLen : ℕ)
  | creditConsumed (consumedLen : ℕ)
  | queueServerTx (serverTx : Ringbuf UInt8)
  | transmit
  | bridgeReceive

/-- The bridge reads a whole frame; only acknowledgements concern the sender. -/
def receiveAck (sender : C2mSender) (encoded : List UInt8) : Except IoError C2mSender :=
  match Bridge.Link.decodeOne encoded with
  | .error error =>
    (Bridge.serialFrame (.error error)).map fun _ => sender
  | .ok frame => if frame.frameType = .ackC2m then handleAckC2m sender frame else .ok sender

/-- The firmware sends a frame, if it has one. -/
def C2mSystem.transmit (c : C2mSystem) : C2mSystem :=
  let read := mcLinkSessionReadTx c.session mcLinkTxPendingBytes
  { c with
    session := read.2, toBridge := if read.1 = [] then c.toBridge else c.toBridge ++ [read.1] }

def c2mStep (c : C2mSystem) : C2mOp → Except IoError C2mSystem
  | .push data => .ok { c with sender := c.sender.pushTcpBytes data, pushed := c.pushed ++ data }
  | .pushFiltered data =>
    let sender := (c.sender.pushFilteredTcpBytes data).1
    .ok { c with
      sender, pushed := c.pushed ++ sender.pendingTcp.drop c.sender.pendingTcp.length }
  | .send now =>
    match sendNextFrame c.sender now with
    | .error error => .error error
    | .ok (encoded, sender) => .ok { c with sender, toFirmware := c.toFirmware ++ encoded.toList }
  | .retransmit now timeout =>
    match c.sender.retransmitIfDue now timeout with
    | none => .ok c
    | some encoded => .ok { c with
        sender := c.sender.markRetransmitted now, toFirmware := c.toFirmware ++ [encoded] }
  | .loseToFirmware index => .ok { c with toFirmware := c.toFirmware.eraseIdx index }
  | .loseToBridge index => .ok { c with toBridge := c.toBridge.eraseIdx index }
  | .firmwareReceive =>
    match c.toFirmware with
    | [] => .ok c
    | frame :: rest => .ok { c with
        session := (mcLinkSessionReceiveBytes c.session frame).2, toFirmware := rest }
  | .takeRx maxLen =>
    let read := c.session.rx.read maxLen
    .ok { c with session := { c.session with rx := read.2 }, taken := c.taken ++ read.1 }
  | .creditConsumed consumedLen =>
    .ok { c with session := mcLinkSessionCreditConsumed c.session consumedLen }
  | .queueServerTx serverTx =>
    .ok { c with session := (mcLinkSessionQueueServerTx c.session serverTx).2.1 }
  | .transmit => .ok c.transmit
  | .bridgeReceive =>
    match c.toBridge with
    | [] => .ok c
    | frame :: rest =>
      match receiveAck c.sender frame with
      | .error error => .error error
      | .ok sender => .ok { c with
          sender, toBridge := rest
          removed := c.removed ++
            c.sender.pendingTcp.take (c.sender.pendingTcp.length - sender.pendingTcp.length) }

def c2mRun : C2mSystem → List C2mOp → Except IoError C2mSystem
  | c, [] => .ok c
  | c, op :: ops =>
    match c2mStep c op with
    | .error error => .error error
    | .ok c => c2mRun c ops

def readySender (sender : C2mSender) (payload : List UInt8) : Option C2mSender :=
  ((Bridge.Link.parseReady payload).bind Bridge.normalizeReady).map fun ready =>
    sender.resetLinkStatePreservingPending ready.negotiatedPayload ready.initialCredit

/-- A link reset has just been made: nothing of either end's old traffic is in flight. -/
structure C2mStart (c : C2mSystem) : Prop where
  session : ∃ rx calls, c.session = (sessionRun (mcLinkSessionInit rx) calls).2
  parser : c.session.parser.Idle
  rx : c.session.rx = .init mcRxRingCap
  rxSeqExpected : c.session.rxSeqExpected = 0
  activeTxQueue : c.session.activeTxQueue = none
  controlTx : c.session.controlTx.items = []
  sender : ∃ before, readySender before (readyPayload c.session) = some c.sender
  toFirmware : c.toFirmware = []
  toBridge : ∀ frame ∈ c.toBridge, TxFrame .data frame
  pushed : c.pushed = c.sender.pendingTcp
  removed : c.removed = []
  taken : c.taken = []

def dataC2mOf (encoded : List UInt8) : Option (ℕ × List UInt8) :=
  match mcLinkDecodeFrame encoded with
  | some frame =>
    if frame.type = mcLinkDataC2m then some (frame.seq.toNat, frame.payload) else none
  | none => none

def ackC2mOf (encoded : List UInt8) : Option (ℕ × ℕ) :=
  match Bridge.Link.decodeOne encoded with
  | .ok frame =>
    if frame.frameType = .ackC2m then
      (Bridge.Link.ackCredit frame.payload).map fun credit => (frame.ack.toNat, credit.toNat)
    else none
  | .error _ => none

theorem dataC2mOf_dataC2m {payload : List UInt8} (h : payload.length ≤ mcLinkMaxPayload)
    (seq ack : UInt16) :
    dataC2mOf (mcLinkFrameBytes mcLinkDataC2m seq ack payload) = some (seq.toNat, payload) := by
  rw [dataC2mOf, mcLinkDecodeFrame_mcLinkFrameBytes h]
  rfl

def resetAckOf (encoded : List UInt8) : Option UInt16 :=
  match Bridge.Link.decodeOne encoded with
  | .ok frame => if frame.frameType = .resetAck then some frame.seq else none
  | .error _ => none

theorem eq_toU8_of_fromU8 {type : UInt8} {frameType : Bridge.Link.FrameType}
    (h : Bridge.Link.FrameType.fromU8 type = frameType) : type = frameType.toU8 := by
  rw [← Bridge.Link.FrameType.toU8_fromU8 type, h]

theorem fromU8_eq_ackC2m {type : UInt8} :
    Bridge.Link.FrameType.fromU8 type = .ackC2m ↔ type = mcLinkAckC2m :=
  ⟨eq_toU8_of_fromU8, fun h => h ▸ rfl⟩

theorem resetAckOf_of_ne {payload : List UInt8} (h : payload.length ≤ mcLinkMaxPayload)
    {type : UInt8} (htype : type ≠ mcLinkResetAck) (seq ack : UInt16) :
    resetAckOf (mcLinkFrameBytes type seq ack payload) = none := by
  rw [resetAckOf, Bridge.Link.decodeOne_mcLinkFrameBytes h]
  exact if_neg fun heq => htype (eq_toU8_of_fromU8 heq)

theorem ackC2mOf_of_ne {payload : List UInt8} (h : payload.length ≤ mcLinkMaxPayload)
    {type : UInt8} (htype : type ≠ mcLinkAckC2m) (seq ack : UInt16) :
    ackC2mOf (mcLinkFrameBytes type seq ack payload) = none := by
  rw [ackC2mOf, Bridge.Link.decodeOne_mcLinkFrameBytes h]
  exact if_neg fun heq => htype (fromU8_eq_ackC2m.mp heq)

theorem toNat_rxFreeCredit {s : LinkSession} (h : s.rx.cap ≤ 0xffff) :
    (rxFreeCredit s).toNat = s.rx.free := by
  have hfree : s.rx.free ≤ 0xffff := Nat.le_trans (Nat.sub_le _ _) h
  rw [rxFreeCredit, if_neg (Nat.not_lt.mpr hfree)]
  exact UInt16.toNat_ofNat_of_lt' (Nat.lt_succ_of_le hfree)

theorem ackCredit_leBytes (credit : UInt16) :
    Bridge.Link.ackCredit (leBytes credit) = some credit :=
  congrArg some (ofLeBytes_leBytes credit)

theorem ackC2mOf_ackC2m (seq ack credit : UInt16) :
    ackC2mOf (mcLinkFrameBytes mcLinkAckC2m seq ack (leBytes credit)) =
      some (ack.toNat, credit.toNat) := by
  rw [ackC2mOf, Bridge.Link.decodeOne_mcLinkFrameBytes (by simp [Bridge.Link.maxPayload])]
  simp only [ackCredit_leBytes, Option.map_some]
  rfl

theorem ackC2mOf_ackFrame {s : LinkSession} (h : s.rx.cap ≤ 0xffff) (ack : UInt16) :
    ackC2mOf (ackFrame s ack) = some (ack.toNat, s.rx.free) := by
  rw [ackFrame, ackC2mOf_ackC2m, toNat_rxFreeCredit h]

/-- The frames the bridge is still to read, apart from data. -/
def C2mSystem.answers (m : TxMux) (c : C2mSystem) : List (List UInt8) :=
  c.toBridge ++ m.waiting .control

/-- The system as stop-and-wait transmission. -/
def C2mSystem.abstraction (m : TxMux) (c : C2mSystem) : StopAndWait UInt8 where
  next := c.sender.nextSeq.toNat
  outstanding := c.sender.outstanding.map fun o => c.sender.pendingTcp.take o.payloadLen
  credit := c.sender.credit.toNat
  pending := c.sender.pendingTcp
  removed := c.removed
  expected := c.session.rxSeqExpected.toNat
  free := c.session.rx.free
  written := c.written
  forward := c.toFirmware.filterMap dataC2mOf
  backward := (c.answers m).filterMap ackC2mOf

def IsDataC2m (frame : List UInt8) : Prop :=
  ∃ seq payload, payload.length ≤ mcLinkMaxPayload ∧ seq ≠ 0xffff ∧
    frame = mcLinkFrameBytes mcLinkDataC2m seq 0 payload

def IsAnswer (frame : List UInt8) : Prop :=
  ∃ type seq ack payload, payload.length ≤ mcLinkMaxPayload ∧
    (type = mcLinkAckC2m → ∃ credit, payload = leBytes credit) ∧
    frame = mcLinkFrameBytes type seq ack payload

/-- A frame on its way to the bridge while no link reset is under way. -/
def IsC2mAnswer (frame : List UInt8) : Prop := IsAnswer frame ∧ resetAckOf frame = none

/-- How the system relates to its transmit queues and to a run of stop-and-wait
transmission from `start`, when the errors `raised` have been raised. -/
structure C2mRel (raised : List (UInt8 × UInt8)) (start : StopAndWait UInt8) (m : TxMux)
    (c : C2mSystem) : Prop where
  tx : TxRel c.session m
  idle : m.current = none
  parser : c.session.parser.Idle
  negotiated : Negotiated c.session
  rxCap : c.session.rx.cap = mcRxRingCap
  payloadCap : c.sender.negotiatedPayload = c.session.negotiatedPayload.toNat
  toFirmware : ∀ frame ∈ c.toFirmware, IsDataC2m frame
  answers : ∀ frame ∈ c.answers m, IsC2mAnswer frame
  outstanding : ∀ o, c.sender.outstanding = some o → o.payloadLen ≤ c.sender.pendingTcp.length ∧
    c.sender.nextSeq.toNat = o.seq.toNat + 1 ∧
    o.encoded = mcLinkFrameBytes mcLinkDataC2m o.seq 0 (c.sender.pendingTcp.take o.payloadLen)
  pushed : c.pushed = c.removed ++ c.sender.pendingTcp
  steps : StopAndWait.Run c.session.negotiatedPayload.toNat start (c.abstraction m)
  raised : c.session.history.raised = raised

variable {raised : List (UInt8 × UInt8)} {start : StopAndWait UInt8} {m : TxMux}
  {c : C2mSystem}

theorem C2mRel.inv (h : C2mRel raised start m c) :
    (c.abstraction m).Inv c.session.negotiatedPayload.toNat :=
  h.steps.inv

/-- The stream is delivered in order and once. -/
theorem C2mRel.delivered (h : C2mRel raised start m c) :
    c.written <+: c.pushed ∧ c.removed <+: c.written := by
  rw [h.pushed]
  exact h.inv.written_isPrefix

theorem C2mRel.congrSession (h : C2mRel raised start m c) {t : LinkSession} (htx : SameTx c.session t)
    (hlink : SameLink c.session t) (hraised : t.history.raised = c.session.history.raised) :
    C2mRel raised start m { c with session := t } where
  tx := h.tx.congr htx
  idle := h.idle
  parser := by
    show t.parser.Idle
    rw [hlink.parser]
    exact h.parser
  negotiated := h.negotiated.sameLink hlink
  rxCap := (congrArg Ringbuf.cap hlink.rx).trans h.rxCap
  payloadCap := h.payloadCap.trans (congrArg UInt16.toNat hlink.negotiatedPayload).symm
  toFirmware := h.toFirmware
  answers := h.answers
  outstanding := h.outstanding
  pushed := h.pushed
  steps := by
    have habs : C2mSystem.abstraction m { c with session := t } = c.abstraction m := by
      simp only [C2mSystem.abstraction, C2mSystem.written, C2mSystem.answers, hlink.rx,
        hlink.rxSeqExpected]
    show StopAndWait.Run t.negotiatedPayload.toNat start _
    rw [habs, hlink.negotiatedPayload]
    exact h.steps
  raised := hraised.trans h.raised

theorem C2mRel.queueAck (h : C2mRel raised start m c) {ack : UInt16}
    (hack : ack.toNat ≤ c.session.rxSeqExpected.toNat) :
    ∃ m', C2mRel raised start m' { c with session := (queueAckC2m c.session ack).2 } := by
  have hlink := sameLink_queueAckC2m c.session ack
  rcases queueAckC2m_cases c.session ack with ⟨hfree, hqueue⟩ | hqueue
  · rw [hqueue] at hlink ⊢
    have hframe : ackC2mOf (ackFrame c.session ack) = some (ack.toNat, c.session.rx.free) :=
      ackC2mOf_ackFrame (by simp [h.rxCap, mcRxRingCap]) ack
    refine ⟨m.enqueue .control (ackFrame c.session ack), h.tx.enqueueAck hfree, h.idle, h.parser,
      h.negotiated.sameLink hlink, h.rxCap, h.payloadCap, h.toFirmware, ?_, h.outstanding,
      h.pushed, ?_, h.raised⟩
    · intro frame hmem
      simp only [C2mSystem.answers, Mux.enqueue, Function.update_self, ← List.append_assoc] at hmem
      rcases List.mem_append.mp hmem with hmem | hmem
      · exact h.answers frame hmem
      · rw [List.mem_singleton.mp hmem]
        exact ⟨⟨_, _, _, _, by simp [mcLinkMaxPayload], fun _ => ⟨_, rfl⟩, rfl⟩,
          resetAckOf_of_ne (by simp [mcLinkMaxPayload]) (by decide) _ _⟩
    · have hreport := h.steps.tail (.report _ ack.toNat hack)
      have habs : C2mSystem.abstraction (m.enqueue .control (ackFrame c.session ack))
          { c with session := c.session.enqueueAck ack } =
          { c.abstraction m with
            backward := (c.abstraction m).backward ++ [(ack.toNat, (c.abstraction m).free)] } := by
        simp only [C2mSystem.abstraction, C2mSystem.answers, Mux.enqueue, Function.update_self,
          ← List.append_assoc]
        rw [List.filterMap_append, List.filterMap_cons_some hframe]
        rfl
      show StopAndWait.Run _ start (C2mSystem.abstraction
        (m.enqueue .control (ackFrame c.session ack))
        { c with session := c.session.enqueueAck ack })
      rw [habs]
      exact hreport
  · rw [hqueue] at hlink ⊢
    exact ⟨m, h.congrSession (sameTx_countError _) hlink rfl⟩

theorem C2mRel.receive (h : C2mRel raised start m c) {t : LinkSession} {rest : List (List UInt8)}
    (htx : SameTx c.session t) (hraised : t.history.raised = c.session.history.raised)
    (hparser : t.parser = c.session.parser) (hnegotiated : Negotiated t)
    (hcap : t.rx.cap = c.session.rx.cap)
    (hpayload : t.negotiatedPayload = c.session.negotiatedPayload)
    (hrest : ∀ frame ∈ rest, frame ∈ c.toFirmware)
    (hsteps : StopAndWait.Run c.session.negotiatedPayload.toNat start
      (C2mSystem.abstraction m { c with session := t, toFirmware := rest })) :
    C2mRel raised start m { c with session := t, toFirmware := rest } where
  tx := h.tx.congr htx
  idle := h.idle
  parser := by
    show t.parser.Idle
    rw [hparser]
    exact h.parser
  negotiated := hnegotiated
  rxCap := hcap.trans h.rxCap
  payloadCap := h.payloadCap.trans (congrArg UInt16.toNat hpayload).symm
  toFirmware frame hframe := h.toFirmware frame (hrest frame hframe)
  answers := h.answers
  outstanding := h.outstanding
  pushed := h.pushed
  steps := by
    show StopAndWait.Run t.negotiatedPayload.toNat start _
    rw [hpayload]
    exact hsteps
  raised := hraised.trans h.raised

theorem toNat_add_one {a : UInt16} (h : a ≠ 0xffff) : (a + 1).toNat = a.toNat + 1 := by
  have hlt := a.toNat_lt
  have hne : a.toNat ≠ 65535 := fun heq => h (UInt16.toNat_inj.mp heq)
  rw [UInt16.toNat_add, UInt16.toNat_one]
  omega

theorem C2mRel.firmwareReceive (h : C2mRel raised start m c) {frame : List UInt8}
    {rest : List (List UInt8)} (hframe : c.toFirmware = frame :: rest) :
    ∃ m', C2mRel raised start m' { c with
      session := (mcLinkSessionReceiveBytes c.session frame).2, toFirmware := rest } := by
  obtain ⟨seq, payload, hlen, hlast, rfl⟩ := h.toFirmware frame (by simp [hframe])
  have hforward : (c.abstraction m).forward =
      (seq.toNat, payload) :: rest.filterMap dataC2mOf := by
    simp only [C2mSystem.abstraction, hframe, List.filterMap_cons, dataC2mOf_dataC2m hlen]
  have hrest : ∀ frame ∈ rest, frame ∈ c.toFirmware := fun f hf => by simp [hframe, hf]
  rw [mcLinkSessionReceiveBytes_frame h.parser hlen, handleFrame_dataC2m _ rfl]
  rcases h.inv.head_forward hforward with hdup | ⟨hseq, hne, hle, hfree⟩
  · -- a copy of the payload accepted last
    have hseq : seq = c.session.rxSeqExpected - 1 := by
      have heq : seq.toNat + 1 = c.session.rxSeqExpected.toNat := hdup
      rw [← UInt16.toNat_inj.mp ((toNat_add_one hlast).trans heq), UInt16.add_sub_cancel]
    rw [handleDataC2m_duplicate h.negotiated.ready hseq]
    have hrel : C2mRel raised start m { c with
        session := { c.session with c2mDuplicateFrames := c.session.c2mDuplicateFrames + 1 }
        toFirmware := rest } :=
      h.receive ⟨rfl, rfl, rfl, rfl, rfl, rfl⟩ rfl rfl
        (h.negotiated.sameLink ⟨rfl, rfl, rfl, rfl, rfl, rfl, rfl, rfl, rfl, rfl⟩) rfl rfl hrest
        (h.steps.tail (.duplicate _ _ _ hforward hdup))
    exact hrel.queueAck (Nat.le_refl _)
  · have hseq : seq = c.session.rxSeqExpected := UInt16.toNat_inj.mp hseq
    rw [handleDataC2m_accept h.negotiated.ready hseq hne hle hfree]
    have hnext : (c.session.rxSeqExpected + 1).toNat = c.session.rxSeqExpected.toNat + 1 :=
      toNat_add_one (hseq ▸ hlast)
    have hspace : (c.session.rx.write payload).2.free = c.session.rx.free - payload.length := by
      have : (c.session.rx.write payload).2.free + payload.length = c.session.rx.free :=
        Ringbuf.free_write_of_le hfree
      omega
    have habs : C2mSystem.abstraction m { c with
        session := c.session.accept payload, toFirmware := rest } =
        { c.abstraction m with
          forward := rest.filterMap dataC2mOf
          expected := c.session.rxSeqExpected.toNat + 1
          free := c.session.rx.free - payload.length
          written := c.written ++ payload } := by
      simp only [C2mSystem.abstraction, C2mSystem.written, C2mSystem.answers, LinkSession.accept,
        hnext, hspace, (Ringbuf.write_of_le hfree).2, List.append_assoc]
    have hrel : C2mRel raised start m { c with
        session := c.session.accept payload, toFirmware := rest } := by
      refine h.receive ⟨rfl, rfl, rfl, rfl, rfl, rfl⟩ rfl rfl ?_ rfl rfl hrest ?_
      · exact ⟨h.negotiated.1, h.negotiated.2, h.negotiated.3, h.negotiated.4, h.negotiated.5⟩
      · rw [habs]
        exact h.steps.tail (.deliver _ _ _ hforward (congrArg UInt16.toNat hseq))
    exact hrel.queueAck (Nat.le_refl _)

theorem C2mRel.takeRx (h : C2mRel raised start m c) (maxLen : ℕ) :
    C2mRel raised start m { c with
      session := { c.session with rx := (c.session.rx.read maxLen).2 }
      taken := c.taken ++ (c.session.rx.read maxLen).1 } where
  tx := h.tx.congr (sameTx_rx _ _)
  idle := h.idle
  parser := h.parser
  negotiated := ⟨h.negotiated.1, h.negotiated.2, h.negotiated.3, h.negotiated.4, h.negotiated.5⟩
  rxCap := h.rxCap
  payloadCap := h.payloadCap
  toFirmware := h.toFirmware
  answers := h.answers
  outstanding := h.outstanding
  pushed := h.pushed
  steps := by
    have hconsume := h.steps.tail (.consume _ _ (Ringbuf.free_read c.session.rx maxLen))
    simpa [C2mSystem.abstraction, C2mSystem.written, C2mSystem.answers] using hconsume
  raised := h.raised

theorem C2mRel.queueServerTx (h : C2mRel raised start m c) (serverTx : Ringbuf UInt8) :
    ∃ m', C2mRel raised start m' { c with
      session := (mcLinkSessionQueueServerTx c.session serverTx).2.1 } := by
  rcases mcLinkSessionQueueServerTx_cases c.session serverTx with
    hq | hq | ⟨n, payload, _, _, _, hlen, hmax, hfree, hq⟩
  · rw [hq]
    exact ⟨m, h⟩
  · rw [hq]
    exact ⟨m, h.congrSession (sameTx_countError _)
      ⟨rfl, rfl, rfl, rfl, rfl, rfl, rfl, rfl, rfl, rfl⟩ rfl⟩
  · rw [hq]
    have hanswers : C2mSystem.answers (m.enqueue .data (mcLinkFrameBytes mcLinkDataM2c
        c.session.txSeqNext c.session.rxSeqExpected payload)) c = c.answers m := by
      simp [C2mSystem.answers, Mux.enqueue]
    refine ⟨_, h.tx.enqueueData (hlen ▸ hmax) hfree, h.idle, h.parser, ?_, h.rxCap, h.payloadCap,
      h.toFirmware, ?_, h.outstanding, h.pushed, ?_, h.raised⟩
    · exact ⟨h.negotiated.1, h.negotiated.2, h.negotiated.3, h.negotiated.4, h.negotiated.5⟩
    · intro frame hframe
      exact h.answers frame (hanswers ▸ hframe)
    · have hsteps := h.steps
      rw [C2mSystem.abstraction, ← hanswers] at hsteps
      exact hsteps

theorem isAnswer_data {frame : List UInt8} (h : TxFrame .data frame) :
    IsC2mAnswer frame ∧ ackC2mOf frame = none := by
  obtain ⟨seq, ack, payload, hencode⟩ := h
  obtain ⟨hlen, rfl⟩ := mcLinkEncode_eq_some hencode
  exact ⟨⟨⟨_, _, _, _, hlen, fun heq => absurd heq (by decide), rfl⟩,
    resetAckOf_of_ne hlen (by decide) _ _⟩, ackC2mOf_of_ne hlen (by decide) _ _⟩

theorem answers_transmit (htx : TxRel c.session m) (hidle : m.current = none) :
    ∃ m', TxRel c.transmit.session m' ∧ m'.current = none ∧
      SameLink c.session c.transmit.session ∧
      c.transmit.session.history = c.session.history ∧
      (c.transmit.answers m' = c.answers m ∨
        ∃ frame, TxFrame .data frame ∧ c.transmit.answers m' = c.answers m ++ [frame]) := by
  have hlink := sameLink_mcLinkSessionReadTx c.session mcLinkTxPendingBytes
  rcases htx.readTx_whole hidle (Nat.le_refl mcLinkTxPendingBytes) with
    ⟨_, hread⟩ | ⟨q, frame, waiting, hwaiting, hfirst, hread, hrel⟩
  · have hstay : c.transmit = c := by
      rw [C2mSystem.transmit, hread]
      rfl
    rw [hstay]
    exact ⟨m, htx, hidle, .refl _, rfl, .inl rfl⟩
  · have hframe := htx.sound.waiting q frame (by simp [hwaiting])
    have hne := hframe.isLinkFrame.isFrame.ne_nil
    have hhistory : c.transmit.session.history = c.session.history := by
      rw [C2mSystem.transmit, hread]
      cases q <;> rfl
    have hbridge : c.transmit.toBridge = c.toBridge ++ [frame] := by
      rw [C2mSystem.transmit, hread]
      exact if_neg hne
    refine ⟨_, hrel, rfl, hlink, hhistory, ?_⟩
    rw [C2mSystem.answers, hbridge]
    cases q with
    | control => exact .inl (by simp [C2mSystem.answers, hwaiting])
    | data => exact .inr ⟨frame, hframe, by simp [C2mSystem.answers, hfirst rfl]⟩

theorem C2mRel.transmit (h : C2mRel raised start m c) :
    ∃ m', C2mRel raised start m' c.transmit := by
  obtain ⟨m', htx, hidle, hlink, hhistory, hanswers⟩ := answers_transmit h.tx h.idle
  have hkeep : (∀ f ∈ c.transmit.answers m', IsC2mAnswer f) ∧
      (c.transmit.answers m').filterMap ackC2mOf = (c.answers m).filterMap ackC2mOf := by
    rcases hanswers with heq | ⟨frame, hframe, heq⟩
    · rw [heq]
      exact ⟨h.answers, rfl⟩
    · obtain ⟨hanswer, hnone⟩ := isAnswer_data hframe
      rw [heq, List.filterMap_append, List.filterMap_cons_none hnone, List.filterMap_nil,
        List.append_nil]
      refine ⟨fun f hf => ?_, rfl⟩
      rcases List.mem_append.mp hf with hf | hf
      · exact h.answers f hf
      · rw [List.mem_singleton.mp hf]
        exact hanswer
  refine ⟨m', htx, hidle, ?_, h.negotiated.sameLink hlink,
    (congrArg Ringbuf.cap hlink.rx).trans h.rxCap,
    h.payloadCap.trans (congrArg UInt16.toNat hlink.negotiatedPayload).symm, h.toFirmware,
    hkeep.1, h.outstanding, h.pushed, ?_, (congrArg SessionHistory.raised hhistory).trans h.raised⟩
  · rw [hlink.parser]
    exact h.parser
  · have habs : c.transmit.abstraction m' = c.abstraction m := by
      have hwritten : c.transmit.written = c.written := by
        rw [C2mSystem.written, hlink.rx]
        rfl
      simp only [C2mSystem.abstraction, hwritten, hlink.rx, hlink.rxSeqExpected]
      exact congrArg _ hkeep.2
    rw [habs, hlink.negotiatedPayload]
    exact h.steps

theorem C2mRel.pushBytes (h : C2mRel raised start m c) (data buffer : List UInt8) :
    C2mRel raised start m { c with
      sender := { c.sender with
        pendingTcp := c.sender.pendingTcp ++ data, minecraftFrameBuffer := buffer }
      pushed := c.pushed ++ data } where
  tx := h.tx
  idle := h.idle
  parser := h.parser
  negotiated := h.negotiated
  rxCap := h.rxCap
  payloadCap := h.payloadCap
  toFirmware := h.toFirmware
  answers := h.answers
  outstanding o ho := by
    obtain ⟨hle, hnext, hencoded⟩ := h.outstanding o ho
    refine ⟨hle.trans (by simp), hnext, ?_⟩
    show o.encoded = mcLinkFrameBytes _ _ _ ((c.sender.pendingTcp ++ data).take o.payloadLen)
    rw [List.take_append_of_le_length hle]
    exact hencoded
  pushed := by simp [h.pushed]
  steps := by
    have houtstanding : (c.sender.outstanding.map fun o =>
        (c.sender.pendingTcp ++ data).take o.payloadLen) =
        c.sender.outstanding.map fun o => c.sender.pendingTcp.take o.payloadLen := by
      cases ho : c.sender.outstanding with
      | none => rfl
      | some o =>
        simp only [Option.map_some]
        rw [List.take_append_of_le_length (h.outstanding o ho).1]
    have hpush := h.steps.tail (.push _ data)
    simpa [C2mSystem.abstraction, C2mSystem.written, C2mSystem.answers, houtstanding] using hpush
  raised := h.raised

theorem C2mRel.loseToFirmware (h : C2mRel raised start m c) {frames : List (List UInt8)}
    (hsublist : frames.Sublist c.toFirmware) : C2mRel raised start m { c with toFirmware := frames } where
  tx := h.tx
  idle := h.idle
  parser := h.parser
  negotiated := h.negotiated
  rxCap := h.rxCap
  payloadCap := h.payloadCap
  toFirmware frame hframe := h.toFirmware frame (hsublist.subset hframe)
  answers := h.answers
  outstanding := h.outstanding
  pushed := h.pushed
  steps := h.steps.tail (.loseForward _ _ (hsublist.filterMap dataC2mOf))
  raised := h.raised

theorem C2mRel.loseToBridge (h : C2mRel raised start m c) {frames : List (List UInt8)}
    (hsublist : frames.Sublist c.toBridge) : C2mRel raised start m { c with toBridge := frames } where
  tx := h.tx
  idle := h.idle
  parser := h.parser
  negotiated := h.negotiated
  rxCap := h.rxCap
  payloadCap := h.payloadCap
  toFirmware := h.toFirmware
  answers frame hframe := h.answers frame
    ((hsublist.append (List.Sublist.refl _)).subset hframe)
  outstanding := h.outstanding
  pushed := h.pushed
  steps := h.steps.tail (.loseBackward _ _
    ((hsublist.append (List.Sublist.refl _)).filterMap ackC2mOf))
  raised := h.raised

theorem C2mRel.sendNext (h : C2mRel raised start m c) {n : ℕ} (now : ℕ)
    (hlen : c.sender.nextPayloadLen = some n) (hseq : c.sender.nextSeq ≠ 0xffff) :
    C2mRel raised start m { c with
      sender := c.sender.sent n now
      toFirmware := c.toFirmware ++ [Bridge.dataC2mBytes c.sender n] } := by
  obtain ⟨hidle, hpos, hpending, hcredit, hcap, hmax⟩ := Bridge.nextPayloadLen_eq_some hlen
  have htake : (c.sender.pendingTcp.take n).length = n := List.length_take_of_le hpending
  have hnext := toNat_add_one hseq
  have hframe : dataC2mOf (Bridge.dataC2mBytes c.sender n) =
      some (c.sender.nextSeq.toNat, c.sender.pendingTcp.take n) :=
    dataC2mOf_dataC2m (htake.le.trans hmax) _ _
  have hnegotiated := h.negotiated.payload.1
  refine ⟨h.tx, h.idle, h.parser, h.negotiated, h.rxCap, h.payloadCap, ?_, h.answers, ?_,
    h.pushed, ?_, h.raised⟩
  · intro frame hmem
    rcases List.mem_append.mp hmem with hmem | hmem
    · exact h.toFirmware frame hmem
    · rw [List.mem_singleton.mp hmem]
      exact ⟨_, _, htake.le.trans hmax, hseq, rfl⟩
  · rintro o ho
    cases ho
    exact ⟨hpending, hnext, rfl⟩
  · have hle : (c.sender.pendingTcp.take n).length ≤ c.session.negotiatedPayload.toNat := by
      rw [htake]
      have := h.payloadCap
      omega
    have hsend := h.steps.tail (.send _ _ (C2mSender.saturatingSub c.sender.credit n).toNat
      (congrArg (Option.map _) hidle) (List.take_prefix n c.sender.pendingTcp)
      (List.ne_nil_of_length_pos (htake.symm ▸ hpos)) (htake.le.trans hcredit) hle)
    have habs : C2mSystem.abstraction m { c with
        sender := c.sender.sent n now
        toFirmware := c.toFirmware ++ [Bridge.dataC2mBytes c.sender n] } =
        { c.abstraction m with
          outstanding := some (c.sender.pendingTcp.take n)
          next := c.sender.nextSeq.toNat + 1
          credit := (C2mSender.saturatingSub c.sender.credit n).toNat
          forward := (c.abstraction m).forward ++
            [(c.sender.nextSeq.toNat, c.sender.pendingTcp.take n)] } := by
      simp only [C2mSystem.abstraction, C2mSystem.written, C2mSystem.answers, C2mSender.sent,
        hnext, List.filterMap_append, List.filterMap_cons_some hframe, List.filterMap_nil,
        Option.map_some]
    show StopAndWait.Run _ start (C2mSystem.abstraction m { c with
      sender := c.sender.sent n now
      toFirmware := c.toFirmware ++ [Bridge.dataC2mBytes c.sender n] })
    rw [habs]
    exact hsend

theorem C2mRel.retransmit (h : C2mRel raised start m c) {now timeout : ℕ} {encoded : List UInt8}
    (hdue : c.sender.retransmitIfDue now timeout = some encoded) :
    C2mRel raised start m { c with
      sender := c.sender.markRetransmitted now, toFirmware := c.toFirmware ++ [encoded] } := by
  cases houtstanding : c.sender.outstanding with
  | none => simp [C2mSender.retransmitIfDue, houtstanding] at hdue
  | some o =>
    have hencoded : o.encoded = encoded := by
      simp only [C2mSender.retransmitIfDue, houtstanding] at hdue
      split_ifs at hdue
      exact Option.some.inj hdue
    obtain ⟨hle, hnext, hbytes⟩ := h.outstanding o houtstanding
    have hpayload : (c.abstraction m).outstanding =
        some (c.sender.pendingTcp.take o.payloadLen) := by
      simp [C2mSystem.abstraction, houtstanding]
    have hresend := h.steps.tail (.resend _ _ hpayload)
    have hmax := (h.inv.payload _ hpayload).2.2.1.trans h.negotiated.payload.2
    have hlast : o.seq ≠ 0xffff := by
      intro heq
      have := c.sender.nextSeq.toNat_lt
      rw [hnext, heq] at this
      exact absurd this (by decide)
    have hframe : dataC2mOf encoded =
        some (c.sender.nextSeq.toNat - 1, c.sender.pendingTcp.take o.payloadLen) := by
      rw [← hencoded, hbytes, dataC2mOf_dataC2m hmax, hnext, Nat.add_sub_cancel]
    obtain ⟨sentAt, retries, hsender⟩ : ∃ sentAt retries, c.sender.markRetransmitted now =
        { c.sender with outstanding := some { o with sentAt := sentAt, retries := retries } } :=
      ⟨_, _, by simp only [C2mSender.markRetransmitted, houtstanding]; rfl⟩
    rw [hsender]
    refine ⟨h.tx, h.idle, h.parser, h.negotiated, h.rxCap, h.payloadCap, ?_, h.answers, ?_,
      h.pushed, ?_, h.raised⟩
    · intro frame hmem
      rcases List.mem_append.mp hmem with hmem | hmem
      · exact h.toFirmware frame hmem
      · rw [List.mem_singleton.mp hmem, ← hencoded]
        exact ⟨_, _, hmax, hlast, hbytes⟩
    · rintro o' ho'
      cases ho'
      exact ⟨hle, hnext, hbytes⟩
    · have habs : C2mSystem.abstraction m { c with
          sender := { c.sender with
            outstanding := some { o with sentAt := sentAt, retries := retries } }
          toFirmware := c.toFirmware ++ [encoded] } =
          { c.abstraction m with
            forward := (c.abstraction m).forward ++
              [(c.sender.nextSeq.toNat - 1, c.sender.pendingTcp.take o.payloadLen)] } := by
        simp only [C2mSystem.abstraction, C2mSystem.written, C2mSystem.answers, houtstanding,
          List.filterMap_append, List.filterMap_cons_some hframe, List.filterMap_nil,
          Option.map_some]
      show StopAndWait.Run _ start (C2mSystem.abstraction m { c with
        sender := { c.sender with
          outstanding := some { o with sentAt := sentAt, retries := retries } }
        toFirmware := c.toFirmware ++ [encoded] })
      rw [habs]
      exact hresend

theorem receiveAck_of_ne (sender : C2mSender) {payload : List UInt8}
    (h : payload.length ≤ mcLinkMaxPayload) {type : UInt8} (htype : type ≠ mcLinkAckC2m)
    (seq ack : UInt16) : receiveAck sender (mcLinkFrameBytes type seq ack payload) = .ok sender := by
  rw [receiveAck, Bridge.Link.decodeOne_mcLinkFrameBytes h]
  exact if_neg fun heq => htype (fromU8_eq_ackC2m.mp heq)

theorem receiveAck_ackC2m (sender : C2mSender) (seq ack credit : UInt16) :
    receiveAck sender (mcLinkFrameBytes mcLinkAckC2m seq ack (leBytes credit)) =
      sender.handleAck ack credit := by
  rw [receiveAck, Bridge.Link.decodeOne_mcLinkFrameBytes (by simp [Bridge.Link.maxPayload])]
  dsimp only
  rw [if_pos (fromU8_eq_ackC2m.mpr rfl), handleAckC2m, ackCredit_leBytes]

theorem C2mRel.bridgeReceive (h : C2mRel raised start m c) {frame : List UInt8}
    {rest : List (List UInt8)} (hframe : c.toBridge = frame :: rest) :
    ∃ sender, receiveAck c.sender frame = .ok sender ∧
      C2mRel raised start m { c with
        sender, toBridge := rest
        removed := c.removed ++
          c.sender.pendingTcp.take (c.sender.pendingTcp.length - sender.pendingTcp.length) } := by
  have hrest : ∀ f ∈ rest ++ m.waiting .control, IsC2mAnswer f := by
    intro f hf
    refine h.answers f ?_
    rw [C2mSystem.answers, hframe, List.cons_append]
    exact List.mem_cons_of_mem _ hf
  obtain ⟨⟨type, seq, ack, payload, hlen, hcredit, rfl⟩, _⟩ := h.answers frame (by
    simp [C2mSystem.answers, hframe])
  by_cases htype : type = mcLinkAckC2m
  case neg =>
    refine ⟨c.sender, receiveAck_of_ne c.sender hlen htype seq ack, ?_⟩
    rw [Nat.sub_self, List.take_zero, List.append_nil]
    exact h.loseToBridge (by simp [hframe])
  obtain ⟨credit, rfl⟩ := hcredit htype
  subst htype
  rw [receiveAck_ackC2m]
  have hanswer := ackC2mOf_ackC2m seq ack credit
  have hbackward : (c.abstraction m).backward =
      (ack.toNat, credit.toNat) :: (rest ++ m.waiting .control).filterMap ackC2mOf := by
    simp only [C2mSystem.abstraction, C2mSystem.answers, hframe, List.cons_append,
      List.filterMap_cons_some hanswer]
  -- only the credit changes
  have hstay (hnoAck : c.sender.outstanding = none ∨ ack.toNat ≠ c.sender.nextSeq.toNat) : C2mRel raised start m { c with
      sender := { c.sender with credit := credit }, toBridge := rest
      removed := c.removed ++ c.sender.pendingTcp.take
        (c.sender.pendingTcp.length - c.sender.pendingTcp.length) } := by
    rw [Nat.sub_self, List.take_zero, List.append_nil]
    exact ⟨h.tx, h.idle, h.parser, h.negotiated, h.rxCap, h.payloadCap, h.toFirmware, hrest,
      h.outstanding, h.pushed, h.steps.tail (.credit _ _ _ hbackward
        (hnoAck.imp_left fun hnone => by simp [C2mSystem.abstraction, hnone])), h.raised⟩
  cases houtstanding : c.sender.outstanding with
  | none => exact ⟨_, by simp [C2mSender.handleAck, houtstanding], hstay (.inl houtstanding)⟩
  | some o =>
    obtain ⟨hle, hnext, hbytes⟩ := h.outstanding o houtstanding
    have hlast : o.seq ≠ 0xffff := by
      intro heq
      have := c.sender.nextSeq.toNat_lt
      rw [hnext, heq] at this
      exact absurd this (by decide)
    have hseq : c.sender.nextSeq = o.seq + 1 :=
      UInt16.toNat_inj.mp (hnext.trans (toNat_add_one hlast).symm)
    by_cases hack : ack = o.seq + 1
    case neg =>
      refine ⟨_, by simp [C2mSender.handleAck, houtstanding, hack], hstay (.inr fun heq => ?_)⟩
      exact hack ((UInt16.toNat_inj.mp heq).trans hseq)
    have hacked := h.steps.tail (.acknowledge _ _ _ _ hbackward
      (show (c.abstraction m).outstanding = some (c.sender.pendingTcp.take o.payloadLen) by
        simp [C2mSystem.abstraction, houtstanding])
      (show ack.toNat = c.sender.nextSeq.toNat by rw [hack, ← hseq]))
    refine ⟨{ c.sender with
      credit := credit, pendingTcp := c.sender.pendingTcp.drop o.payloadLen
      outstanding := none }, by simp [C2mSender.handleAck, houtstanding, hack, hle], ?_⟩
    have hcount : c.sender.pendingTcp.length - (c.sender.pendingTcp.drop o.payloadLen).length =
        o.payloadLen := by
      rw [List.length_drop]
      omega
    simp only [hcount]
    refine ⟨h.tx, h.idle, h.parser, h.negotiated, h.rxCap, h.payloadCap, h.toFirmware, hrest,
      by simp, ?_, ?_, h.raised⟩
    · show c.pushed = c.removed ++ c.sender.pendingTcp.take o.payloadLen ++
        c.sender.pendingTcp.drop o.payloadLen
      rw [List.append_assoc, List.take_append_drop, h.pushed]
    · have htake : (c.sender.pendingTcp.take o.payloadLen).length = o.payloadLen :=
        List.length_take_of_le hle
      rw [htake] at hacked
      exact hacked

theorem C2mRel.step (h : C2mRel raised start m c) (op : C2mOp) :
    (∃ c' m', c2mStep c op = .ok c' ∧ C2mRel raised start m' c') ∨
      c2mStep c op = .error sequenceExhausted ∧ c.sender.nextSeq = 0xffff := by
  cases op with
  | push data => exact .inl ⟨_, m, rfl, h.pushBytes data c.sender.minecraftFrameBuffer⟩
  | pushFiltered data =>
    obtain ⟨out, rest, hpush⟩ : ∃ out rest, (c.sender.pushFilteredTcpBytes data).1 =
        { c.sender with
          pendingTcp := c.sender.pendingTcp ++ out, minecraftFrameBuffer := rest } :=
      Bridge.drainLoop_appends _ _
    refine .inl ⟨_, m, rfl, ?_⟩
    simp only [hpush, List.drop_left]
    exact h.pushBytes out rest
  | send now =>
    rcases Bridge.sendNextFrame_cases c.sender now with
      ⟨_, hsend⟩ | ⟨_, hseq, hsend⟩ | ⟨n, hlen, hseq, hsend⟩
    · refine .inl ⟨c, m, ?_, h⟩
      simp [c2mStep, hsend]
    · exact .inr ⟨by simp [c2mStep, hsend], hseq⟩
    · exact .inl ⟨_, m, by simp only [c2mStep, hsend]; rfl, h.sendNext now hlen hseq⟩
  | retransmit now timeout =>
    cases hdue : c.sender.retransmitIfDue now timeout with
    | none => exact .inl ⟨c, m, by simp [c2mStep, hdue], h⟩
    | some encoded => exact .inl ⟨_, m, by simp only [c2mStep, hdue], h.retransmit hdue⟩
  | loseToFirmware index =>
    exact .inl ⟨_, m, rfl, h.loseToFirmware (List.eraseIdx_sublist _ index)⟩
  | loseToBridge index =>
    exact .inl ⟨_, m, rfl, h.loseToBridge (List.eraseIdx_sublist _ index)⟩
  | firmwareReceive =>
    cases hframe : c.toFirmware with
    | nil => exact .inl ⟨c, m, by simp [c2mStep, hframe], h⟩
    | cons frame rest =>
      obtain ⟨m', hm'⟩ := h.firmwareReceive hframe
      exact .inl ⟨_, m', by simp only [c2mStep, hframe], hm'⟩
  | takeRx maxLen => exact .inl ⟨_, m, rfl, h.takeRx maxLen⟩
  | creditConsumed consumedLen =>
    obtain ⟨m', hm'⟩ := h.queueAck (show (0 : UInt16).toNat ≤ _ from Nat.zero_le _)
    exact .inl ⟨_, m', rfl, hm'⟩
  | queueServerTx serverTx =>
    obtain ⟨m', hm'⟩ := h.queueServerTx serverTx
    exact .inl ⟨_, m', rfl, hm'⟩
  | transmit =>
    obtain ⟨m', hm'⟩ := h.transmit
    exact .inl ⟨_, m', rfl, hm'⟩
  | bridgeReceive =>
    cases hframe : c.toBridge with
    | nil => exact .inl ⟨c, m, by simp [c2mStep, hframe], h⟩
    | cons frame rest =>
      obtain ⟨sender, hsender, hrel⟩ := h.bridgeReceive hframe
      exact .inl ⟨_, m, by simp only [c2mStep, hframe, hsender], hrel⟩

theorem C2mRel.run (h : C2mRel raised start m c) (ops : List C2mOp) :
    (∃ c' m', c2mRun c ops = .ok c' ∧ C2mRel raised start m' c') ∨
      c2mRun c ops = .error sequenceExhausted := by
  induction ops generalizing c m with
  | nil => exact .inl ⟨c, m, rfl, h⟩
  | cons op ops ih =>
    rw [c2mRun]
    rcases h.step op with ⟨c₁, m₁, hstep, hrel⟩ | ⟨hstep, _⟩
    · rw [hstep]
      exact ih hrel
    · rw [hstep]
      exact .inr rfl

/-- The bridge accepts every `READY` the firmware sends. -/
theorem normalizeReady_readyPayload {s : LinkSession} (h : Negotiated s) :
    (Bridge.Link.parseReady (readyPayload s)).bind Bridge.normalizeReady =
      some { negotiatedPayload := s.negotiatedPayload.toNat, initialCredit := s.creditCap
             supportedRateMask := s.supportedRateMask } := by
  have hparse : Bridge.Link.parseReady (readyPayload s) =
      some { negotiatedPayload := s.negotiatedPayload, creditCap := s.creditCap
             initialCredit := s.creditCap, supportedRateMask := s.supportedRateMask
             initialRateProfile := s.activeRateProfile, flags := 0 } := by
    show some _ = some _
    rw [ofLeBytes_leBytes, ofLeBytes_leBytes, ofLeBytes_leBytes]
    rfl
  have hpayload : s.negotiatedPayload ≠ 0 := by
    intro heq
    have := h.payload.1
    rw [heq] at this
    exact absurd this (by decide)
  have hcredit : s.creditCap ≠ 0 := by
    intro heq
    have := h.credit.1
    rw [heq] at this
    exact absurd this (by decide)
  have hmask : s.supportedRateMask &&& (1 <<< s.activeRateProfile.toUInt16) ≠ 0 := by
    rw [h.rateProfile, show (1 : UInt16) <<< (0 : UInt8).toUInt16 = 1 by decide, h.rateMask]
    decide
  rw [hparse, Option.bind_some, Bridge.normalizeReady, if_neg (by simp [hpayload, hcredit]),
    if_neg (by simp), if_neg (by simp [h.rateProfile]), if_neg hmask]
  exact congrArg (fun n => some (Bridge.ReadyState.mk n _ _)) (Nat.min_eq_left h.payload.2)

theorem waiting_eq_nil {s : LinkSession} {m : TxMux} (h : TxRel s m) {q : TxQueue}
    (hitems : (s.ring q).items = []) : m.waiting q = [] := by
  have hring := h.ring q
  rw [hitems] at hring
  have hflatten : (m.waiting q).flatten = [] := (List.append_eq_nil_iff.mp hring.symm).2
  refine List.eq_nil_iff_forall_not_mem.mpr fun frame hframe => ?_
  exact (h.sound.waiting q frame hframe).isLinkFrame.isFrame.ne_nil
    (List.flatten_eq_nil_iff.mp hflatten frame hframe)

theorem C2mStart.rel (h : C2mStart c) :
    ∃ m, C2mRel c.session.history.raised (c.abstraction m) m c := by
  obtain ⟨rx, calls, hsession⟩ := h.session
  have hnegotiated : Negotiated c.session := hsession ▸ (negotiated_init rx).sessionRun calls
  obtain ⟨m, hm, _⟩ := (txRel_init rx).sessionRun calls
  rw [← hsession] at hm
  have hidle := hm.activeTxQueue_eq_none.mp h.activeTxQueue
  have hwaiting : m.waiting .control = [] := waiting_eq_nil hm h.controlTx
  obtain ⟨before, hsender⟩ := h.sender
  rw [readySender, normalizeReady_readyPayload hnegotiated, Option.map_some,
    Option.some.injEq] at hsender
  have hanswers : c.answers m = c.toBridge := by rw [C2mSystem.answers, hwaiting, List.append_nil]
  have hbackward : (c.abstraction m).backward = [] := by
    show (c.answers m).filterMap ackC2mOf = []
    rw [hanswers, List.filterMap_eq_nil_iff]
    exact fun frame hframe => (isAnswer_data (h.toBridge frame hframe)).2
  refine ⟨m, hm, hidle, h.parser, hnegotiated, by rw [h.rx]; rfl, by rw [← hsender]; rfl, ?_, ?_,
    ?_, ?_, ?_, rfl⟩
  · simp [h.toFirmware]
  · intro frame hframe
    exact (isAnswer_data (h.toBridge frame (hanswers ▸ hframe))).1
  · intro o ho
    rw [← hsender] at ho
    exact absurd ho (by simp [C2mSender.resetLinkStatePreservingPending])
  · rw [h.pushed, h.removed, List.nil_append]
  · refine ⟨StopAndWait.inv_of_idle ?_ (by simp [hbackward]) ?_ ?_ ?_ ?_, .refl⟩
    · simp [C2mSystem.abstraction, h.toFirmware]
    · simp [C2mSystem.abstraction, ← hsender, C2mSender.resetLinkStatePreservingPending]
    · show c.sender.nextSeq.toNat = c.session.rxSeqExpected.toNat
      rw [← hsender, h.rxSeqExpected]
      rfl
    · simp [C2mSystem.abstraction, C2mSystem.written, h.taken, h.removed, h.rx]
    · show c.sender.credit.toNat ≤ c.session.rx.free
      rw [← hsender, h.rx]
      exact hnegotiated.credit.2.trans (by decide)

/-- Exactly-once delivery in order. After a link reset, in every state that the steps
reach, what was written to the receive ring is a prefix of what was put into
`pending_tcp`, everything removed from there was written, and the firmware has raised no
further error. The run ends only when the sequence numbers are used up. -/
theorem c2mRun_exactlyOnce (hstart : C2mStart c) (ops : List C2mOp) :
    (∃ c', c2mRun c ops = .ok c' ∧ c'.written <+: c'.pushed ∧ c'.removed <+: c'.written ∧
        c'.pushed = c'.removed ++ c'.sender.pendingTcp ∧
        c'.session.history.raised = c.session.history.raised) ∨
      c2mRun c ops = .error sequenceExhausted := by
  obtain ⟨m, hrel⟩ := hstart.rel
  rcases hrel.run ops with ⟨c', m', hrun, hrel'⟩ | hrun
  · exact .inl ⟨c', hrun, hrel'.delivered.1, hrel'.delivered.2, hrel'.pushed, hrel'.raised⟩
  · exact .inr hrun

def c2mBoot : C2mSystem :=
  { sender := .new 497 512, session := mcLinkSessionInit (.init mcRxRingCap), toFirmware := []
    toBridge := [], pushed := [], removed := [], taken := [] }

theorem c2mStart_boot : C2mStart c2mBoot where
  session := ⟨_, [], rfl⟩
  parser := idle_mcLinkParserInit
  rx := rfl
  rxSeqExpected := rfl
  activeTxQueue := rfl
  controlTx := rfl
  sender := ⟨.new 497 512, by decide⟩
  toFirmware := rfl
  toBridge := by simp [c2mBoot]
  pushed := rfl
  removed := rfl
  taken := rfl

/-- A frame is lost, is sent again twice, and both copies arrive. -/
def lossyOps : List C2mOp :=
  [.push [1, 2, 3], .send 0, .loseToFirmware 0, .retransmit 9 5, .retransmit 20 5,
    .firmwareReceive, .takeRx 2, .creditConsumed 2, .firmwareReceive, .transmit, .bridgeReceive]

theorem c2mRun_exactlyOnce_lossy :
    ∃ c', c2mRun c2mBoot lossyOps = .ok c' ∧ c'.written = [1, 2, 3] ∧ c'.removed = [1, 2, 3] ∧
      c'.written <+: c'.pushed ∧ c'.session.history.raised = [] := by
  have hvalue : (c2mRun c2mBoot lossyOps).toOption.map (fun c => (c.written, c.removed)) =
      some ([1, 2, 3], [1, 2, 3]) := by
    decide +kernel
  rcases c2mRun_exactlyOnce c2mStart_boot lossyOps with ⟨c', hok, hpre, _, _, hraised⟩ | herror
  · rw [hok] at hvalue
    have hpair := Option.some.inj hvalue
    exact ⟨c', hok, congrArg Prod.fst hpair, congrArg Prod.snd hpair, hpre, hraised⟩
  · rw [herror] at hvalue
    contradiction

end StarrySky.System
