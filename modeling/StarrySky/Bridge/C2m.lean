import StarrySky.Bridge.Link

/-! The client-to-Minecraft sender of `bridge/src/c2m.rs`: a filter on the client's
stream, and stop-and-wait transmission of the bytes that pass it. -/

namespace StarrySky.Bridge
open StarrySky.Base

inductive IoErrorKind
  | invalidData | invalidInput | timedOut
deriving DecidableEq, Repr

structure IoError where
  kind : IoErrorKind
  message : String
deriving DecidableEq, Repr

abbrev minecraftVarintMaxBytes : ℕ := 5
abbrev minecraftFrameLengthLimit : ℕ := 8192

/-- Instants and durations are counts of one unit of time. -/
structure OutstandingC2m where
  seq : UInt16
  payloadLen : ℕ
  encoded : List UInt8
  sentAt : ℕ
  retries : UInt8
deriving DecidableEq

structure C2mSender where
  pendingTcp : List UInt8
  minecraftFrameBuffer : List UInt8
  outstanding : Option OutstandingC2m
  nextSeq : UInt16
  negotiatedPayload : ℕ
  credit : UInt16
deriving DecidableEq

structure C2mFilterStats where
  forwardedBytes : ℕ
  droppedMovementFrames : ℕ
  bufferedBytes : ℕ
deriving DecidableEq

inductive VarIntRead
  | complete (value width : ℕ)
  | incomplete
  | invalid
deriving DecidableEq

def C2mSender.new (negotiatedPayload : ℕ) (credit : UInt16) : C2mSender :=
  { pendingTcp := [], minecraftFrameBuffer := [], outstanding := none, nextSeq := 0,
    negotiatedPayload, credit }

/-- The loop of `read_minecraft_varint`: the value so far and the bytes read. -/
def readMinecraftVarintLoop (value index : ℕ) : List UInt8 → Option (ℕ × ℕ)
  | [] => none
  | byte :: bytes =>
    let value := value ||| ((byte &&& 0x7f).toNat <<< (7 * index))
    if byte &&& 0x80 = 0 then some (value, index + 1)
    else readMinecraftVarintLoop value (index + 1) bytes

def readMinecraftVarint (bytes : List UInt8) : VarIntRead :=
  match readMinecraftVarintLoop 0 0 (bytes.take minecraftVarintMaxBytes) with
  | some (value, width) => .complete value width
  | none => if bytes.length < minecraftVarintMaxBytes then .incomplete else .invalid

def shouldForwardMinecraftFrame (frame : List UInt8) : Bool :=
  match readMinecraftVarint frame with
  | .complete packetLen packetLenWidth =>
    if frame.length ≠ packetLenWidth + packetLen then true
    else
      let body := frame.drop packetLenWidth
      match readMinecraftVarint body with
      | .complete uncompressedLen uncompressedLenWidth =>
        if uncompressedLen ≠ 0 then true
        else
          match readMinecraftVarint (body.drop uncompressedLenWidth) with
          | .complete packetId _ => ¬ (0x03 ≤ packetId ∧ packetId ≤ 0x06)
          | _ => true
      | _ => true
  | _ => true

theorem index_lt_of_readMinecraftVarintLoop {value index : ℕ} {bytes : List UInt8} {v w : ℕ}
    (h : readMinecraftVarintLoop value index bytes = some (v, w)) : index < w := by
  induction bytes generalizing value index with
  | nil => simp [readMinecraftVarintLoop] at h
  | cons byte bytes ih =>
    rw [readMinecraftVarintLoop] at h
    split at h
    · simp only [Option.some.injEq, Prod.mk.injEq] at h
      omega
    · exact Nat.lt_of_succ_lt (ih h)

theorem width_pos_of_complete {bytes : List UInt8} {value width : ℕ}
    (h : readMinecraftVarint bytes = .complete value width) : 0 < width := by
  unfold readMinecraftVarint at h
  split at h
  case h_1 v w hloop =>
    cases h
    exact index_lt_of_readMinecraftVarintLoop hloop
  case h_2 => split at h <;> contradiction

namespace C2mSender

def pushTcpBytes (sender : C2mSender) (data : List UInt8) : C2mSender :=
  { sender with pendingTcp := sender.pendingTcp ++ data }

def forwardBufferFailOpen (sender : C2mSender) (stats : C2mFilterStats) :
    C2mSender × C2mFilterStats :=
  ({ sender with
      pendingTcp := sender.pendingTcp ++ sender.minecraftFrameBuffer, minecraftFrameBuffer := [] },
    { stats with forwardedBytes := stats.forwardedBytes + sender.minecraftFrameBuffer.length })

/-- The loop of `drain_filtered_minecraft_frames`. -/
def drainLoop (sender : C2mSender) (stats : C2mFilterStats) : C2mSender × C2mFilterStats :=
  match _h : readMinecraftVarint sender.minecraftFrameBuffer with
  | .complete value width =>
    if value > minecraftFrameLengthLimit then sender.forwardBufferFailOpen stats
    else
      let frameLen := width + value
      if sender.minecraftFrameBuffer.length < frameLen then (sender, stats)
      else
        let frame := sender.minecraftFrameBuffer.take frameLen
        let rest := sender.minecraftFrameBuffer.drop frameLen
        if shouldForwardMinecraftFrame frame then
          drainLoop { sender with
            pendingTcp := sender.pendingTcp ++ frame, minecraftFrameBuffer := rest }
            { stats with forwardedBytes := stats.forwardedBytes + frameLen }
        else
          drainLoop { sender with minecraftFrameBuffer := rest }
            { stats with droppedMovementFrames := stats.droppedMovementFrames + 1 }
  | .incomplete => (sender, stats)
  | .invalid => sender.forwardBufferFailOpen stats
termination_by sender.minecraftFrameBuffer.length
decreasing_by
  all_goals
    have := width_pos_of_complete _h
    simp only [List.length_drop]
    omega

def drainFilteredMinecraftFrames (sender : C2mSender) : C2mSender × C2mFilterStats :=
  let drained := sender.drainLoop
    { forwardedBytes := 0, droppedMovementFrames := 0, bufferedBytes := 0 }
  (drained.1, { drained.2 with bufferedBytes := drained.1.minecraftFrameBuffer.length })

def pushFilteredTcpBytes (sender : C2mSender) (data : List UInt8) : C2mSender × C2mFilterStats :=
  { sender with minecraftFrameBuffer := sender.minecraftFrameBuffer ++ data }
    |>.drainFilteredMinecraftFrames

def resetLinkStatePreservingPending (sender : C2mSender) (negotiatedPayload : ℕ)
    (credit : UInt16) : C2mSender :=
  { sender with outstanding := none, nextSeq := 0, negotiatedPayload, credit }

def nextPayloadLen (sender : C2mSender) : Option ℕ :=
  if sender.outstanding.isSome ∨ sender.pendingTcp = [] ∨ sender.credit = 0 then none
  else
    let payloadCap := min (max sender.negotiatedPayload 1) Link.firmwarePayloadCap
    let payloadLen := min (min sender.pendingTcp.length payloadCap) sender.credit.toNat
    if payloadLen > 0 then some payloadLen else none

def nextFrameToSend (sender : C2mSender) : Except IoError (Option Link.Frame) :=
  match sender.nextPayloadLen with
  | none => .ok none
  | some payloadLen =>
    if sender.nextSeq = 0xffff then
      .error { kind := .invalidData, message := "C2M sequence exhausted; reset required" }
    else
      .ok (some { frameType := .dataC2m, flags := 0, seq := sender.nextSeq, ack := 0,
                  payload := sender.pendingTcp.take payloadLen })

end C2mSender

def encodeDataC2mFrame (frame : Link.Frame) : Except IoError (List UInt8) :=
  match Link.encode frame.frameType frame.seq frame.ack frame.payload with
  | some encoded => .ok encoded
  | none => .error { kind := .invalidInput, message := "failed to encode DATA_C2M frame" }

namespace C2mSender

/-- `credit.saturating_sub(payload_len as u16)`. -/
def saturatingSub (credit : UInt16) (payloadLen : ℕ) : UInt16 :=
  UInt16.ofNat (credit.toNat - (UInt16.ofNat payloadLen).toNat)

def markSent (sender : C2mSender) (frame : Link.Frame) (now : ℕ) : Except IoError C2mSender :=
  match sender.nextPayloadLen with
  | none => .ok sender
  | some payloadLen =>
    if frame.seq ≠ sender.nextSeq ∨ frame.payload.length ≠ payloadLen then
      .error { kind := .invalidInput, message := "DATA_C2M frame does not match sender state" }
    else
      match encodeDataC2mFrame frame with
      | .error error => .error error
      | .ok encoded =>
        .ok { sender with
          credit := saturatingSub sender.credit payloadLen
          outstanding := some
            { seq := sender.nextSeq, payloadLen, encoded, sentAt := now, retries := 0 }
          nextSeq := sender.nextSeq + 1 }

def handleAck (sender : C2mSender) (ack credit : UInt16) : Except IoError C2mSender :=
  let sender := { sender with credit }
  match sender.outstanding with
  | none => .ok sender
  | some outstanding =>
    if ack ≠ outstanding.seq + 1 then .ok sender
    else if sender.pendingTcp.length < outstanding.payloadLen then
      .error { kind := .invalidData,
               message := "ACK_C2M advanced beyond pending DATA_C2M bytes" }
    else
      .ok { sender with
        pendingTcp := sender.pendingTcp.drop outstanding.payloadLen, outstanding := none }

def retransmitIfDue (sender : C2mSender) (now timeout : ℕ) : Option (List UInt8) :=
  match sender.outstanding with
  | none => none
  | some outstanding =>
    if now < outstanding.sentAt then none
    else if now - outstanding.sentAt < timeout then none
    else some outstanding.encoded

def markRetransmitted (sender : C2mSender) (now : ℕ) : C2mSender :=
  match sender.outstanding with
  | none => sender
  | some outstanding =>
    { sender with outstanding := some { outstanding with
        sentAt := now
        retries := if outstanding.retries = 0xff then 0xff else outstanding.retries + 1 } }

end C2mSender

def handleAckC2m (sender : C2mSender) (frame : Link.Frame) : Except IoError C2mSender :=
  match Link.ackCredit frame.payload with
  | none => .error { kind := .invalidData, message := "invalid ACK_C2M payload" }
  | some credit => sender.handleAck frame.ack credit

end StarrySky.Bridge
