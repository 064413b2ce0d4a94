import StarrySky.Bridge.C2mReads
import StarrySky.Core.Framing

/-! The client's frames as the bridge's filter and the server cut them: at the same places. -/

namespace StarrySky.System
open StarrySky.Base StarrySky.Bridge StarrySky.Core

/-- The filter's frames are frames to the server. -/
def inboundFrame (frame : MinecraftFrame) : InboundFrame :=
  { lengthBytes := frame.lengthPrefix, body := frame.body, isVarint := frame.isVarint
    length_lengthBytes_le := frame.length_lengthPrefix_le }

theorem length_body_inboundFrame_le (frame : MinecraftFrame) :
    (inboundFrame frame).body.length ≤ mcMaxPacketBody :=
  frame.length_body_le.trans (by decide)

theorem classifyFrame_rest {rest : List UInt8} (h : IsRest rest) :
    classifyFrame rest = .needMore ∧ mcPacketTryRead rest = none := by
  rcases h with rfl | ⟨frame, hpre, hne⟩
  · exact ⟨rfl, rfl⟩
  · exact @classifyFrame_part (inboundFrame frame) (length_body_inboundFrame_le frame) rest hpre hne

/-- Frames within the limit and a part of one more, cut in any way: the frames that are no
movement are forwarded, the part is kept, the counts are right, and the server cuts the
same bytes at the same places. -/
theorem pushAll_frames {sender : C2mSender} (hempty : sender.minecraftFrameBuffer = [])
    (frames : List MinecraftFrame) {rest : List UInt8} (hrest : IsRest rest)
    {chunks : List (List UInt8)} (hchunks : chunks.flatten = streamOf frames ++ rest) :
    (pushAll sender chunks).pendingTcp = sender.pendingTcp ++ forwarded frames ∧
    (pushAll sender chunks).minecraftFrameBuffer = rest ∧
    forwardedBytes sender chunks + sender.pendingTcp.length =
      (pushAll sender chunks).pendingTcp.length ∧
    (∀ done frame later, frames = done ++ frame :: later →
      classifyFrame (streamOf (frame :: later) ++ rest) = .ready frame.bytes.length ∧
      mcPacketTryRead (streamOf (frame :: later) ++ rest) =
        some { body := frame.body, frameLen := frame.bytes.length }) ∧
    classifyFrame rest = .needMore ∧ mcPacketTryRead rest = none := by
  have hwaits : filterBytes sender.minecraftFrameBuffer = ([], sender.minecraftFrameBuffer) := by
    rw [hempty]
    exact filterBytes_stream [] (.inl rfl)
  have hkeeps : ¬ FailsOpen (sender.minecraftFrameBuffer ++ chunks.flatten) := by
    rw [hempty, hchunks]
    exact not_failsOpen_stream frames hrest
  obtain ⟨hpushed, hcount⟩ := pushAll_filterBytes chunks hwaits hkeeps
  rw [hempty, hchunks, List.nil_append, filterBytes_stream frames hrest] at hpushed hcount
  rw [hpushed, hcount]
  refine ⟨rfl, rfl, ?_, ?_, classifyFrame_rest hrest⟩
  · dsimp only
    rw [List.length_append, Nat.add_comm]
  · intro done frame later _
    have hcons : streamOf (frame :: later) ++ rest = frame.bytes ++ (streamOf later ++ rest) := by
      simp [streamOf]
    rw [hcons]
    exact classifyFrame_frame (length_body_inboundFrame_le frame) _

theorem isVarint_keepAliveFrame_length : IsVarint [0x83, 0x00] 3 :=
  .more 0x83 (by decide) (.last 0x00 (by decide))

/-- A keepalive with a length in two bytes. -/
def keepAliveFrame : MinecraftFrame :=
  { lengthPrefix := [0x83, 0x00], body := [0x00, 0x00, 0x07]
    isVarint := isVarint_keepAliveFrame_length
    length_lengthPrefix_le := by decide
    length_body_le := by decide }

theorem isVarint_movementFrame_length : IsVarint [0x03] 3 := .last 0x03 (by decide)

def movementFrame : MinecraftFrame :=
  { lengthPrefix := [0x03], body := [0x00, 0x03, 0x01]
    isVarint := isVarint_movementFrame_length
    length_lengthPrefix_le := by decide
    length_body_le := by decide }

/-- A keepalive passes, the movement behind it is dropped, and the first byte of the next frame
stays. -/
theorem pushAll_frames_keepAlive :
    (pushAll (.new 497 512)
        [[0x83], [0x00, 0x00, 0x00], [0x07, 0x03, 0x00, 0x03, 0x01, 0x83]]).pendingTcp =
        keepAliveFrame.bytes ∧
      (pushAll (.new 497 512)
        [[0x83], [0x00, 0x00, 0x00], [0x07, 0x03, 0x00, 0x03, 0x01, 0x83]]).minecraftFrameBuffer =
        [0x83] := by
  have hrest : IsRest [0x83] := .inr ⟨keepAliveFrame, ⟨[0x00, 0x00, 0x00, 0x07], rfl⟩, by decide⟩
  have hsender : (C2mSender.new 497 512).minecraftFrameBuffer = [] := rfl
  obtain ⟨hpending, hbuffer, _⟩ := pushAll_frames hsender [keepAliveFrame, movementFrame] hrest
    (show [[0x83], [0x00, 0x00, 0x00], [0x07, 0x03, 0x00, 0x03, 0x01, 0x83]].flatten =
      streamOf [keepAliveFrame, movementFrame] ++ [0x83] by decide)
  refine ⟨hpending.trans ?_, hbuffer⟩
  decide +kernel

end StarrySky.System
