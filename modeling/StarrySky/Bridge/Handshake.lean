import StarrySky.Bridge.C2m

/-! The link reset as the bridge sees it, `bridge/src/handshake.rs`. -/

namespace StarrySky.Bridge
open StarrySky.Base

structure ReadyState where
  negotiatedPayload : ℕ
  initialCredit : UInt16
  supportedRateMask : UInt16
deriving DecidableEq, Repr

def normalizeReady (ready : Link.ReadyPayload) : Option ReadyState :=
  if ready.negotiatedPayload = 0 ∨ ready.creditCap = 0 ∨ ready.initialCredit = 0 then none
  else if ready.initialCredit > ready.creditCap then none
  else if ready.initialRateProfile ≠ Link.startupRateProfile then none
  else if ready.supportedRateMask &&& (1 <<< ready.initialRateProfile.toUInt16) = 0 then none
  else
    some { negotiatedPayload := min ready.negotiatedPayload.toNat Link.firmwarePayloadCap
           initialCredit := ready.initialCredit
           supportedRateMask := ready.supportedRateMask }

/-- One event in the loop of `reset_link_and_wait_ready_with_seq`: whether the matching
acknowledgement was seen, and the state to return. -/
def resetWaitEvent (resetSeq : UInt16) (sawResetAck : Bool) (event : Link.DecodeEvent) :
    Bool × Option ReadyState :=
  match event with
  | .error _ => (sawResetAck, none)
  | .frame frame =>
    if frame.frameType = .resetAck then (sawResetAck || frame.seq = resetSeq, none)
    else if frame.frameType = .ready ∧ sawResetAck then
      (sawResetAck, (Link.parseReady frame.payload).bind normalizeReady)
    else (sawResetAck, none)

def resetWaitEvents (resetSeq : UInt16) (sawResetAck : Bool) :
    List Link.DecodeEvent → Bool × Option ReadyState
  | [] => (sawResetAck, none)
  | event :: events =>
    let next := resetWaitEvent resetSeq sawResetAck event
    if next.2.isSome then next else resetWaitEvents resetSeq next.1 events

/-- The loop of `reset_link_and_wait_ready_with_seq` after the reset was written. The
reads are those made in time; without an answer in them the call times out. -/
def resetWaitLoop (resetSeq : UInt16) (sawResetAck : Bool) (decoder : Link.Decoder) :
    List (List UInt8) → Except IoError ReadyState
  | [] => .error { kind := .timedOut, message := "timed out waiting for reset READY" }
  | buf :: reads =>
    let fed := decoder.feed buf
    match resetWaitEvents resetSeq sawResetAck fed.2 with
    | (_, some ready) => .ok ready
    | (sawResetAck, none) => resetWaitLoop resetSeq sawResetAck fed.1 reads

def resetLinkAndWaitReadyWithSeq (resetSeq : UInt16) (reads : List (List UInt8)) :
    Except IoError ReadyState :=
  resetWaitLoop resetSeq false .new reads

end StarrySky.Bridge
