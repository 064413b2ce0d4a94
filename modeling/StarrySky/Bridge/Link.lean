import StarrySky.Link.FrameLemmas

/-! The bridge's half of the link codec, `bridge/src/link.rs`: frame types, the
vector encoder, and a decoder that takes one byte at a time. -/

namespace StarrySky.Bridge.Link
open StarrySky.Base StarrySky.Link

abbrev version : UInt8 := 2
abbrev delimiter : UInt8 := 0
abbrev bodyHeaderLen : ℕ := 9
abbrev crcLen : ℕ := 2
abbrev maxEncodedLen : ℕ := 512
abbrev maxPayload : ℕ := 497
abbrev firmwarePayloadCap : ℕ := maxPayload
abbrev startupRateProfile : UInt8 := 0

inductive FrameType
  | hello | ready | dataC2m | ackC2m | dataM2c | rateProbe | rateProbeAck
  | reset | resetAck | error | ping | pong
  | unknown (raw : UInt8)
deriving DecidableEq, Repr

def FrameType.toU8 : FrameType → UInt8
  | hello => 0x01
  | ready => 0x02
  | dataC2m => 0x03
  | ackC2m => 0x04
  | dataM2c => 0x05
  | rateProbe => 0x06
  | rateProbeAck => 0x07
  | reset => 0x08
  | resetAck => 0x09
  | error => 0x0a
  | ping => 0x0b
  | pong => 0x0c
  | unknown raw => raw

def FrameType.fromU8 (value : UInt8) : FrameType :=
  if value = 0x01 then hello
  else if value = 0x02 then ready
  else if value = 0x03 then dataC2m
  else if value = 0x04 then ackC2m
  else if value = 0x05 then dataM2c
  else if value = 0x06 then rateProbe
  else if value = 0x07 then rateProbeAck
  else if value = 0x08 then reset
  else if value = 0x09 then resetAck
  else if value = 0x0a then error
  else if value = 0x0b then ping
  else if value = 0x0c then pong
  else unknown value

theorem FrameType.toU8_fromU8 (value : UInt8) : (fromU8 value).toU8 = value := by
  have hif : ∀ (raw : UInt8) (known rest : FrameType), known.toU8 = raw → rest.toU8 = value →
      (if value = raw then known else rest).toU8 = value := by
    intro raw known rest hknown hrest
    split
    case isTrue h => rw [hknown, h]
    case isFalse => exact hrest
  exact hif _ _ _ rfl <| hif _ _ _ rfl <| hif _ _ _ rfl <| hif _ _ _ rfl <| hif _ _ _ rfl <|
    hif _ _ _ rfl <| hif _ _ _ rfl <| hif _ _ _ rfl <| hif _ _ _ rfl <| hif _ _ _ rfl <|
    hif _ _ _ rfl <| hif _ _ _ rfl rfl

def FrameType.isUnknown : FrameType → Bool
  | unknown _ => true
  | _ => false

structure Frame where
  frameType : FrameType
  flags : UInt8
  seq : UInt16
  ack : UInt16
  payload : List UInt8
deriving DecidableEq, Repr

inductive DecodeError
  | cobs | crc | version (found : UInt8) | length | payloadTooLarge
deriving DecidableEq, Repr

inductive DecodeEvent
  | frame (frame : Frame)
  | error (error : DecodeError)
deriving DecidableEq, Repr

def crc16 (data : List UInt8) : UInt16 :=
  data.foldl (fun (crc : UInt16) (byte : UInt8) =>
    (fun crc : UInt16 => if crc &&& 0x8000 ≠ 0 then (crc <<< 1) ^^^ 0x1021 else crc <<< 1)^[8]
      (crc ^^^ (byte.toUInt16 <<< 8))) 0xffff

/-- The variables of `cobs_encode`; a reserved code byte is zero. -/
structure CobsEncoder where
  encoded : List UInt8
  codeIndex : ℕ
  code : UInt8
  blockOpen : Bool

def CobsEncoder.storeCode (st : CobsEncoder) : CobsEncoder :=
  { st with encoded := st.encoded.set st.codeIndex st.code }

/-- The loop body of `cobs_encode`. -/
def cobsEncodeByte (st : CobsEncoder) (byte : UInt8) : CobsEncoder :=
  let st :=
    if st.blockOpen then st
    else { encoded := st.encoded ++ [0], codeIndex := st.encoded.length, code := 1,
           blockOpen := true }
  if byte = 0 then { st.storeCode with blockOpen := false }
  else
    let st := { st with encoded := st.encoded ++ [byte], code := st.code + 1 }
    if st.code = 0xff then { st.storeCode with blockOpen := false } else st

def CobsEncoder.init : CobsEncoder :=
  { encoded := [0], codeIndex := 0, code := 1, blockOpen := true }

/-- What `cobs_encode` does after its loop; `lastZero` says whether the input ends in zero. -/
def CobsEncoder.finish (st : CobsEncoder) (lastZero : Bool) : List UInt8 :=
  if st.blockOpen then st.storeCode.encoded
  else if st.encoded = [] ∨ lastZero then st.encoded ++ [1]
  else st.encoded

def cobsEncode (input : List UInt8) : List UInt8 :=
  (input.foldl cobsEncodeByte .init).finish (input.getLast? = some 0)

/-- The loop of `cobs_decode`, with what is decoded so far. -/
def cobsDecodeLoop (decoded : List UInt8) : List UInt8 → Except DecodeError (List UInt8)
  | [] => .ok decoded
  | code :: input =>
    if code = 0 then .error .cobs
    else
      let copyLen := code.toNat - 1
      if copyLen > input.length then .error .cobs
      else
        let decoded := decoded ++ input.take copyLen
        let rest := input.drop copyLen
        if code ≠ 0xff ∧ rest ≠ [] then cobsDecodeLoop (decoded ++ [0]) rest
        else cobsDecodeLoop decoded rest
termination_by input => input.length
decreasing_by all_goals simp only [List.length_drop, List.length_cons]; omega

def cobsDecode (input : List UInt8) : Except DecodeError (List UInt8) := cobsDecodeLoop [] input

def encode (frameType : FrameType) (seq ack : UInt16) (payload : List UInt8) :
    Option (List UInt8) :=
  if payload.length > maxPayload then none
  else if frameType.isUnknown then none
  else
    let body := [version, frameType.toU8, 0] ++ leBytes seq ++ leBytes ack ++
      leBytes (UInt16.ofNat payload.length) ++ payload
    let encoded := cobsEncode (body ++ leBytes (crc16 body)) ++ [delimiter]
    if encoded.length > maxEncodedLen then none else some encoded

/-- The checks of `decode_one` on the unstuffed body. -/
def parseBody (body : List UInt8) : Except DecodeError Frame :=
  match body with
  | version' :: type :: flags :: seq0 :: seq1 :: ack0 :: ack1 :: len0 :: len1 :: rest =>
    let payloadLen := (ofLeBytes len0 len1).toNat
    if body.length < bodyHeaderLen + crcLen then .error .length
    else if version' ≠ version then .error (.version version')
    else if payloadLen > maxPayload then .error .payloadTooLarge
    else if body.length ≠ bodyHeaderLen + payloadLen + crcLen then .error .length
    else
      match rest.drop payloadLen with
      | crc0 :: crc1 :: _ =>
        if crc16 (body.take (bodyHeaderLen + payloadLen)) ≠ ofLeBytes crc0 crc1 then .error .crc
        else .ok { frameType := .fromU8 type, flags, seq := ofLeBytes seq0 seq1,
                   ack := ofLeBytes ack0 ack1, payload := rest.take payloadLen }
      | _ => .error .length
  | _ => .error .length

def decodeOne (encodedWithDelimiter : List UInt8) : Except DecodeError Frame :=
  if encodedWithDelimiter.length > maxEncodedLen ∨
      encodedWithDelimiter.getLast? ≠ some delimiter then .error .length
  else
    let encoded := encodedWithDelimiter.dropLast
    if encoded = [] then .error .length
    else if delimiter ∈ encoded then .error .cobs
    else
      match cobsDecode encoded with
      | .error error => .error error
      | .ok body => parseBody body

structure Decoder where
  buffer : List UInt8
  discarding : Bool
deriving DecidableEq

def Decoder.new : Decoder := { buffer := [], discarding := false }

/-- The loop body of `Decoder::feed`: at most one event for each byte. -/
def Decoder.feedByte (decoder : Decoder) (byte : UInt8) : Decoder × Option DecodeEvent :=
  if decoder.discarding then
    if byte = delimiter then ({ decoder with discarding := false }, some (.error .length))
    else (decoder, none)
  else if byte = delimiter then
    if decoder.buffer = [] then (decoder, none)
    else
      ({ decoder with buffer := [] },
        some (match decodeOne (decoder.buffer ++ [delimiter]) with
          | .ok frame => .frame frame
          | .error error => .error error))
  else
    let buffer := decoder.buffer ++ [byte]
    if buffer.length ≥ maxEncodedLen then ({ buffer := [], discarding := true }, none)
    else ({ decoder with buffer := buffer }, none)

def Decoder.feed (decoder : Decoder) : List UInt8 → Decoder × List DecodeEvent
  | [] => (decoder, [])
  | byte :: data =>
    let (decoder, event) := decoder.feedByte byte
    let (decoder, events) := decoder.feed data
    (decoder, event.toList ++ events)

structure ReadyPayload where
  negotiatedPayload : UInt16
  creditCap : UInt16
  initialCredit : UInt16
  supportedRateMask : UInt16
  initialRateProfile : UInt8
  flags : UInt16
deriving DecidableEq, Repr

def parseReady (payload : List UInt8) : Option ReadyPayload :=
  match payload with
  | [p0, p1, c0, c1, i0, i1, m0, m1, profile, f0, f1] =>
    some { negotiatedPayload := ofLeBytes p0 p1, creditCap := ofLeBytes c0 c1,
           initialCredit := ofLeBytes i0 i1, supportedRateMask := ofLeBytes m0 m1,
           initialRateProfile := profile, flags := ofLeBytes f0 f1 }
  | _ => none

def ackCredit (payload : List UInt8) : Option UInt16 :=
  match payload with
  | [c0, c1] => some (ofLeBytes c0 c1)
  | _ => none

end StarrySky.Bridge.Link
