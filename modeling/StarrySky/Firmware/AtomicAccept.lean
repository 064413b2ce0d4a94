import StarrySky.Firmware.DataC2m

/-! When the three steps that accept a data frame, the write, the number and the acknowledgement,
are all taken or none. -/

namespace StarrySky.Firmware
open StarrySky.Base StarrySky.Link

structure AwaitedFits (s : LinkSession) (frame : McLinkFrame) : Prop where
  ready : s.ready = true
  seq : frame.seq = s.rxSeqExpected
  nonempty : frame.payload ≠ []
  negotiated : frame.payload.length ≤ s.negotiatedPayload.toNat
  free : frame.payload.length ≤ s.rx.free

/-- A failure changes nothing that was received; whatever is received is the frame's payload, and
it is acknowledged with the room that is left. -/
structure AcceptsAtomically (s : LinkSession) (frame : McLinkFrame) (result : Bool × LinkSession) :
    Prop where
  failure : result.1 = false →
    result.2.rx = s.rx ∧ result.2.rxSeqExpected = s.rxSeqExpected
  advance : result.2.rxSeqExpected ≠ s.rxSeqExpected ∨ result.2.rx ≠ s.rx →
    result.1 = true ∧ result.2.rxSeqExpected = s.rxSeqExpected + 1 ∧
    result.2.rx.items = s.rx.items ++ frame.payload ∧
    result.2.controlTx.items = s.controlTx.items ++
      mcLinkFrameBytes mcLinkAckC2m 0 (s.rxSeqExpected + 1) (leBytes (rxFreeCredit result.2))

abbrev ackFrameLen : ℕ := 15

theorem length_mcLinkFrameBytes_of_lt {payload : List UInt8} (h : payload.length + 11 < 254)
    (type : UInt8) (seq ack : UInt16) :
    (mcLinkFrameBytes type seq ack payload).length = payload.length + 13 := by
  -- Stuffing adds one byte to a short body, whatever its bytes are.
  have hgt := Cobs.length_encodeFrom_gt [] (mcLinkBody type seq ack payload)
  have hle := Cobs.length_encode_le (mcLinkBody type seq ack payload)
  rw [Cobs.encode, length_mcLinkBody] at hle
  rw [length_mcLinkBody, List.length_nil] at hgt
  rw [mcLinkFrameBytes, List.length_append, List.length_singleton, Cobs.encode]
  omega

theorem length_ackFrame (s : LinkSession) (ack : UInt16) :
    (ackFrame s ack).length = ackFrameLen := by
  have hpayload : (leBytes (rxFreeCredit s)).length = 2 := length_leBytes _
  rw [ackFrame, length_mcLinkFrameBytes_of_lt (by rw [hpayload]; decide), hpayload]

theorem queueAckC2m_of_ackFrameLen (s : LinkSession) (ack : UInt16) :
    queueAckC2m s ack =
      if ackFrameLen ≤ s.controlTx.free then (true, s.enqueueAck ack)
      else (false, s.countError) := by
  rw [queueAckC2m_eq, length_ackFrame]

theorem sameReceived_of_sameLink {s t : LinkSession} (h : SameLink s t) :
    t.rx = s.rx ∧ t.rxSeqExpected = s.rxSeqExpected := ⟨h.rx, h.rxSeqExpected⟩

theorem handleDataC2m_refused {s : LinkSession} {frame : McLinkFrame} (h : ¬ AwaitedFits s frame) :
    (handleDataC2m s frame).2.rx = s.rx ∧
      (handleDataC2m s frame).2.rxSeqExpected = s.rxSeqExpected := by
  rw [handleDataC2m]
  dsimp only
  split_ifs with hready hdup hseq hlen hfree hwrite
  · exact sameReceived_of_sameLink (sameLink_queueError s _ _)
  · have hsame := sameLink_queueAckC2m
      { s with c2mDuplicateFrames := s.c2mDuplicateFrames + 1 } s.rxSeqExpected
    exact ⟨hsame.rx, hsame.rxSeqExpected⟩
  · exact sameReceived_of_sameLink (sameLink_queueError s _ _)
  · exact sameReceived_of_sameLink (sameLink_queueError s _ _)
  · exact sameReceived_of_sameLink (sameLink_queueError s _ _)
  all_goals
    -- here every check has passed
    refine absurd ⟨by simpa using hready, not_not.mp hseq, ?_, ?_, Nat.le_of_not_lt hfree⟩ h
    · intro hnil
      exact hlen (.inl (List.length_eq_zero_iff.mpr hnil))
    · exact Nat.le_of_not_lt fun hlong => hlen (.inr hlong)

theorem handleDataC2m_atomic_iff (s : LinkSession) (frame : McLinkFrame) :
    AcceptsAtomically s frame (handleDataC2m s frame) ↔
      ¬ (AwaitedFits s frame ∧ s.controlTx.free < ackFrameLen) := by
  by_cases hfits : AwaitedFits s frame
  case neg =>
    obtain ⟨hrx, hseq⟩ := handleDataC2m_refused hfits
    refine iff_of_true ⟨fun _ => ⟨hrx, hseq⟩, ?_⟩ fun h => hfits h.1
    rintro (h | h)
    · exact absurd hseq h
    · exact absurd hrx h
  have hne : s.rxSeqExpected + 1 ≠ s.rxSeqExpected := by
    intro h
    have hone := congrArg (· - s.rxSeqExpected) h
    simp at hone
  rw [handleDataC2m_accept hfits.ready hfits.seq hfits.nonempty hfits.negotiated hfits.free,
    queueAckC2m_of_ackFrameLen]
  by_cases hroom : ackFrameLen ≤ (s.accept frame.payload).controlTx.free
  · have hwrite := (Ringbuf.write_of_le hfits.free).2
    have hack : (ackFrame (s.accept frame.payload) (s.rxSeqExpected + 1)).length ≤
        (s.accept frame.payload).controlTx.free := (length_ackFrame _ _).trans_le hroom
    rw [if_pos hroom]
    refine iff_of_true ⟨nofun, fun _ => ⟨rfl, rfl, hwrite, ?_⟩⟩ fun h =>
      absurd h.2 (Nat.not_lt.mpr hroom)
    exact (Ringbuf.write_of_le hack).2
  · rw [if_neg hroom]
    refine iff_of_false ?_ (not_not.mpr ⟨hfits, Nat.lt_of_not_le hroom⟩)
    intro h
    exact hne (h.failure rfl).2

theorem controlTx_countError_accept (s : LinkSession) (payload : List UInt8) :
    (s.accept payload).countError.controlTx = s.controlTx := rfl

theorem handleDataC2m_of_full {s : LinkSession} {frame : McLinkFrame} (hfits : AwaitedFits s frame)
    (hfull : s.controlTx.free < ackFrameLen) :
    handleDataC2m s frame = (false, (s.accept frame.payload).countError) := by
  -- With no room for the acknowledgement the payload is kept and the frame is reported as failed.
  rw [handleDataC2m_accept hfits.ready hfits.seq hfits.nonempty hfits.negotiated hfits.free]
  exact (queueAckC2m_of_ackFrameLen _ _).trans (if_neg (Nat.not_le_of_lt hfull))

def pingBytes : List UInt8 := mcLinkFrameBytes mcLinkPing 0 0 []
def pongBytes : List UInt8 := mcLinkFrameBytes mcLinkPong 0 0 []

theorem sessionStep_ping {s : LinkSession} (hidle : s.parser.Idle)
    (hroom : pongBytes.length ≤ s.controlTx.free) :
    (sessionStep s (.receiveBytes pingBytes)).2 = s.enqueue .control pongBytes := by
  have hqueue := queueFrame_eq s .control mcLinkPong 0 0 []
  rw [if_pos ⟨Nat.zero_le _, hroom⟩] at hqueue
  have hframe := @mcLinkSessionReceiveBytes_frame s hidle [] (Nat.zero_le _) mcLinkPing 0 0
  have hping : handleFrame s { type := mcLinkPing, flags := 0, seq := 0, ack := 0, payload := [] } =
      queueFrame s .control mcLinkPong 0 0 [] := by
    rw [handleFrame, if_neg (by decide), if_neg (by decide), if_neg (by decide),
      if_neg (by decide), if_pos rfl, queueControlFrame]
  rw [sessionStep, pingBytes, hframe, hping, hqueue, pongBytes]

/-- PINGs that nobody reads the answers of fill the control queue, and nothing else. -/
theorem sessionRun_pings {s : LinkSession} (hidle : s.parser.Idle) {n : ℕ}
    (hroom : n * pongBytes.length ≤ s.controlTx.free) :
    SameLink s (sessionRun s (List.replicate n (.receiveBytes pingBytes))).2 ∧
      (sessionRun s (List.replicate n (.receiveBytes pingBytes))).2.controlTx.free +
        n * pongBytes.length = s.controlTx.free := by
  induction n generalizing s with
  | zero => exact ⟨.refl s, by rw [Nat.zero_mul]; rfl⟩
  | succ n ih =>
    rw [Nat.succ_mul] at hroom ⊢
    have hfirst : pongBytes.length ≤ s.controlTx.free := (Nat.le_add_left _ _).trans hroom
    have hfree : (s.enqueue .control pongBytes).controlTx.free + pongBytes.length =
        s.controlTx.free := Ringbuf.free_write_of_le hfirst
    have hsame := sameLink_enqueue s .control pongBytes
    obtain ⟨hrest, hleft⟩ := @ih (s.enqueue .control pongBytes) (by rw [hsame.parser]; exact hidle)
      (by omega)
    rw [List.replicate_succ, sessionRun, sessionStep_ping hidle hfirst]
    exact ⟨hsame.trans hrest, by rw [← Nat.add_assoc, hleft, hfree]⟩

/-- A fresh session that received `n` of them. -/
def pingedSession (n : ℕ) : LinkSession :=
  (sessionRun (mcLinkSessionInit (.init 8192)) (List.replicate n (.receiveBytes pingBytes))).2

theorem sameLink_pingedSession {n : ℕ} (h : n * 13 ≤ 2048) :
    SameLink (mcLinkSessionInit (.init 8192)) (pingedSession n) ∧
      (pingedSession n).controlTx.free + n * 13 = 2048 := by
  have hlength : pongBytes.length = 13 := length_mcLinkFrameBytes_of_lt (by decide) _ _ _
  have hcap : (mcLinkSessionInit (.init 8192)).controlTx.free = 2048 := rfl
  have hrun := @sessionRun_pings (mcLinkSessionInit (.init 8192)) idle_mcLinkParserInit n
    (by rw [hlength, hcap]; exact h)
  rw [hlength, hcap] at hrun
  exact hrun

def oneByteFrame : McLinkFrame :=
  { type := mcLinkDataC2m, flags := 0, seq := 0, ack := 0, payload := [1] }

theorem handleDataC2m_notAcknowledged :
    (pingedSession 157).rx.items = [] ∧ (pingedSession 157).rxSeqExpected = 0 ∧
      (handleDataC2m (pingedSession 157) oneByteFrame).1 = false ∧
      (handleDataC2m (pingedSession 157) oneByteFrame).2.rx.items = [1] ∧
      (handleDataC2m (pingedSession 157) oneByteFrame).2.rxSeqExpected = 1 ∧
      (handleDataC2m (pingedSession 157) oneByteFrame).2.controlTx =
        (pingedSession 157).controlTx := by
  obtain ⟨hsame, hleft⟩ := sameLink_pingedSession (show 157 * 13 ≤ 2048 by decide)
  -- the run itself is not evaluated
  generalize pingedSession 157 = s at hsame hleft ⊢
  have hfull : s.controlTx.free < ackFrameLen := by
    apply Nat.lt_of_add_lt_add_right
    rw [hleft]
    decide
  have hrx : s.rx = .init 8192 := hsame.rx
  have hseq : s.rxSeqExpected = 0 := hsame.rxSeqExpected
  have hready : s.ready = true := hsame.ready
  have hpayload : s.negotiatedPayload = 497 := hsame.negotiatedPayload
  have hfits : AwaitedFits s oneByteFrame :=
    ⟨hready, hseq.symm, by decide, by rw [hpayload]; decide, by rw [hrx]; decide⟩
  rw [handleDataC2m_of_full hfits hfull]
  refine ⟨by rw [hrx]; rfl, hseq, rfl, ?_, ?_, controlTx_countError_accept s _⟩
  · show (s.rx.write [1]).2.items = [1]
    rw [hrx]
    rfl
  · show s.rxSeqExpected + 1 = 1
    rw [hseq]
    rfl

end StarrySky.Firmware
