import StarrySky.Bridge.C2m
import StarrySky.Bridge.LinkLemmas

/-! The client loop's helpers in `bridge/src/session.rs`. -/

namespace StarrySky.Bridge
open StarrySky.Link (mcLinkFrameBytes)

/-- The new expected sequence number. -/
def acceptM2cSequence (frame : Link.Frame) (expected : UInt16) : Except IoError UInt16 :=
  if frame.seq ≠ expected then
    .error { kind := .invalidData
             message := "DATA_M2C sequence mismatch expected=" ++ toString expected ++
               " got=" ++ toString frame.seq }
  else .ok (expected + 1)

def acceptM2cFrames : List Link.Frame → UInt16 → Except IoError UInt16
  | [], expected => .ok expected
  | frame :: frames, expected =>
    match acceptM2cSequence frame expected with
    | .ok expected => acceptM2cFrames frames expected
    | .error error => .error error

theorem acceptM2cFrames_of_seqs {frames : List Link.Frame} {start : ℕ}
    (h : frames.map Link.Frame.seq =
      (List.range' start frames.length).map UInt16.ofNat) :
    acceptM2cFrames frames (UInt16.ofNat start) =
      .ok (UInt16.ofNat (start + frames.length)) := by
  induction frames generalizing start with
  | nil => rfl
  | cons frame frames ih =>
    simp only [List.map_cons, List.length_cons, List.range'_succ, List.cons.injEq] at h
    have hnext : UInt16.ofNat start + 1 = UInt16.ofNat (start + 1) :=
      (UInt16.ofNat_add start 1).symm
    simp only [acceptM2cFrames, acceptM2cSequence, h.1, ne_eq, not_true_eq_false, if_false,
      hnext, ih h.2, List.length_cons]
    rw [Nat.add_assoc, Nat.add_comm 1]

/-- The `Debug` text of a decode error. -/
def decodeErrorDebug : Link.DecodeError → String
  | .cobs => "Cobs"
  | .crc => "Crc"
  | .version found => "Version(" ++ toString found ++ ")"
  | .length => "Length"
  | .payloadTooLarge => "PayloadTooLarge"

/-- A frame that `handle_serial_rx_bytes` takes from the decoder. -/
def serialFrame : Link.DecodeEvent → Except IoError Link.Frame
  | .frame frame => .ok frame
  | .error error => .error
      { kind := .invalidData, message := "serial link decode error: " ++ decodeErrorDebug error }

/-- `next_frame_to_send`, the encoding and `mark_sent`, as `run_link_client` calls them. -/
def sendNextFrame (sender : C2mSender) (now : ℕ) :
    Except IoError (Option (List UInt8) × C2mSender) :=
  match sender.nextFrameToSend with
  | .error error => .error error
  | .ok none => .ok (none, sender)
  | .ok (some frame) =>
    match encodeDataC2mFrame frame with
    | .error error => .error error
    | .ok encoded =>
      match sender.markSent frame now with
      | .error error => .error error
      | .ok sender => .ok (some encoded, sender)

/-- The error that makes the client loop reset the link. -/
def sequenceExhausted : IoError :=
  { kind := .invalidData, message := "C2M sequence exhausted; reset required" }

theorem nextPayloadLen_eq_some {sender : C2mSender} {n : ℕ} (h : sender.nextPayloadLen = some n) :
    sender.outstanding = none ∧ 0 < n ∧ n ≤ sender.pendingTcp.length ∧ n ≤ sender.credit.toNat ∧
      n ≤ max sender.negotiatedPayload 1 ∧ n ≤ Link.maxPayload := by
  unfold C2mSender.nextPayloadLen at h
  dsimp only at h
  split_ifs at h with hstop hpos
  simp only [not_or] at hstop
  rw [← Option.some.inj h]
  simp only [Link.firmwarePayloadCap] at hpos ⊢
  refine ⟨by simpa using hstop.1, hpos, ?_, ?_, ?_, ?_⟩ <;> omega

def dataC2mBytes (sender : C2mSender) (n : ℕ) : List UInt8 :=
  mcLinkFrameBytes Link.FrameType.dataC2m.toU8 sender.nextSeq 0 (sender.pendingTcp.take n)

def C2mSender.sent (sender : C2mSender) (n now : ℕ) : C2mSender :=
  { sender with
    credit := saturatingSub sender.credit n
    outstanding := some
      { seq := sender.nextSeq, payloadLen := n, encoded := dataC2mBytes sender n, sentAt := now
        retries := 0 }
    nextSeq := sender.nextSeq + 1 }

theorem sendNextFrame_cases (sender : C2mSender) (now : ℕ) :
    sender.nextPayloadLen = none ∧ sendNextFrame sender now = .ok (none, sender) ∨
    (∃ n, sender.nextPayloadLen = some n) ∧ sender.nextSeq = 0xffff ∧
      sendNextFrame sender now = .error sequenceExhausted ∨
    ∃ n, sender.nextPayloadLen = some n ∧ sender.nextSeq ≠ 0xffff ∧
      sendNextFrame sender now = .ok (some (dataC2mBytes sender n), sender.sent n now) := by
  cases hlen : sender.nextPayloadLen with
  | none => exact .inl ⟨rfl, by simp [sendNextFrame, C2mSender.nextFrameToSend, hlen]⟩
  | some n =>
    by_cases hseq : sender.nextSeq = 0xffff
    · refine .inr (.inl ⟨⟨n, rfl⟩, hseq, ?_⟩)
      simp [sendNextFrame, C2mSender.nextFrameToSend, hlen, hseq, sequenceExhausted]
    · obtain ⟨_, _, hpending, _, _, hmax⟩ := nextPayloadLen_eq_some hlen
      have htake : (sender.pendingTcp.take n).length = n := List.length_take_of_le hpending
      have hencode : Link.encode .dataC2m sender.nextSeq 0 (sender.pendingTcp.take n) =
          some (dataC2mBytes sender n) := Link.encode_eq rfl (htake.le.trans hmax) _ _
      refine .inr (.inr ⟨n, rfl, hseq, ?_⟩)
      simp [sendNextFrame, C2mSender.nextFrameToSend, C2mSender.markSent, encodeDataC2mFrame, hlen,
        hseq, hencode, Nat.min_eq_left hpending, C2mSender.sent]

end StarrySky.Bridge
