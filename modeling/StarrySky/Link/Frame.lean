import Mathlib
import StarrySky.Base.Bytes
import StarrySky.Base.Cobs

/-! The link frame codec of `core/src/mc_link.c`: header, payload and CRC, stuffed
and closed by a delimiter. -/

namespace StarrySky.Link
open StarrySky.Base

abbrev mcLinkVersion : UInt8 := 2
abbrev mcLinkDelimiter : UInt8 := 0
abbrev mcLinkBodyHeaderLen : ℕ := 9
abbrev mcLinkCrcLen : ℕ := 2
abbrev mcLinkMaxEncodedLen : ℕ := 512
abbrev mcLinkMaxPayload : ℕ := 497
abbrev mcLinkMaxFrameLen : ℕ := mcLinkMaxEncodedLen
abbrev mcLinkMaxBodyLen : ℕ := mcLinkBodyHeaderLen + mcLinkMaxPayload + mcLinkCrcLen
abbrev mcLinkMaxEncodedWithoutDelimiter : ℕ := mcLinkMaxEncodedLen - 1
abbrev mcLinkCrcInit : UInt16 := 0xffff
abbrev mcLinkCrcPoly : UInt16 := 0x1021

/-- `mc_link_frame_t`; the length field is the length of the payload. -/
structure McLinkFrame where
  type : UInt8
  flags : UInt8
  seq : UInt16
  ack : UInt16
  payload : List UInt8
deriving DecidableEq, Repr

def crc16Bit (crc : UInt16) : UInt16 :=
  if crc &&& 0x8000 ≠ 0 then (crc <<< 1) ^^^ mcLinkCrcPoly else crc <<< 1

def crc16Byte (crc : UInt16) (byte : UInt8) : UInt16 :=
  crc16Bit^[8] (crc ^^^ (byte.toUInt16 <<< 8))

def crc16Update (crc : UInt16) (src : List UInt8) : UInt16 := src.foldl crc16Byte crc

def mcLinkCrc16 (src : List UInt8) : UInt16 := crc16Update mcLinkCrcInit src

/-- `cobs_stream_encoder_t`. `dst` holds the bytes up to `write_index`; a reserved
code byte is zero until its block closes. -/
structure CobsStreamEncoder where
  dst : List UInt8
  dstCap : ℕ
  codeIndex : ℕ
  code : UInt8
  blockOpen : Bool
  trailingZeroPending : Bool

def cobsStreamOpenBlock (encoder : CobsStreamEncoder) : Option CobsStreamEncoder :=
  if encoder.dst.length ≥ encoder.dstCap then none
  else some { encoder with
    dst := encoder.dst ++ [0], codeIndex := encoder.dst.length, code := 1,
    blockOpen := true, trailingZeroPending := false }

def cobsStreamInit (dstCap : ℕ) : Option CobsStreamEncoder :=
  if dstCap = 0 then none
  else some { dst := [], dstCap := dstCap, codeIndex := 0, code := 1,
              blockOpen := false, trailingZeroPending := false }

/-- Write the code byte back to the place reserved for it. -/
def CobsStreamEncoder.storeCode (encoder : CobsStreamEncoder) : CobsStreamEncoder :=
  { encoder with dst := encoder.dst.set encoder.codeIndex encoder.code }

def cobsStreamWriteByte (encoder : CobsStreamEncoder) (byte : UInt8) :
    Option CobsStreamEncoder :=
  match (if encoder.blockOpen then some encoder else cobsStreamOpenBlock encoder) with
  | none => none
  | some encoder =>
    if byte = 0 then
      some { encoder.storeCode with blockOpen := false, trailingZeroPending := true }
    else if encoder.dst.length ≥ encoder.dstCap then none
    else
      let encoder := { encoder with dst := encoder.dst ++ [byte], code := encoder.code + 1 }
      if encoder.code = 0xff then
        some { encoder.storeCode with blockOpen := false, trailingZeroPending := false }
      else some encoder

def cobsStreamWrite (encoder : CobsStreamEncoder) : List UInt8 → Option CobsStreamEncoder
  | [] => some encoder
  | byte :: src =>
    match cobsStreamWriteByte encoder byte with
    | none => none
    | some encoder => cobsStreamWrite encoder src

def cobsStreamFinish (encoder : CobsStreamEncoder) : Option (List UInt8) :=
  if encoder.blockOpen then some encoder.storeCode.dst
  else if encoder.dst.length = 0 ∨ encoder.trailingZeroPending then
    (cobsStreamOpenBlock encoder).map fun encoder => encoder.storeCode.dst
  else some encoder.dst

/-- The loop of `cobs_decode`, with what is written so far in `dst`. -/
def cobsDecodeLoop (dstCap : ℕ) (dst : List UInt8) : List UInt8 → Option (List UInt8)
  | [] => some dst
  | code :: src =>
    if code = 0 then none
    else
      let copyLen := code.toNat - 1
      if copyLen > src.length then none
      else if dst.length + copyLen > dstCap then none
      else
        let dst := dst ++ src.take copyLen
        let rest := src.drop copyLen
        if code ≠ 0xff ∧ rest ≠ [] then
          if dst.length = dstCap then none else cobsDecodeLoop dstCap (dst ++ [0]) rest
        else cobsDecodeLoop dstCap dst rest
termination_by src => src.length
decreasing_by all_goals simp only [List.length_drop, List.length_cons]; omega

def cobsDecode (src : List UInt8) (dstCap : ℕ) : Option (List UInt8) :=
  cobsDecodeLoop dstCap [] src

def mcLinkHeader (type : UInt8) (seq ack : UInt16) (payloadLen : ℕ) : List UInt8 :=
  [mcLinkVersion, type, 0] ++ leBytes seq ++ leBytes ack ++ leBytes (UInt16.ofNat payloadLen)

def mcLinkEncode (type : UInt8) (seq ack : UInt16) (payload : List UInt8) (outCap : ℕ) :
    Option (List UInt8) :=
  if payload.length > mcLinkMaxPayload then none
  else if outCap = 0 then none
  else
    let header := mcLinkHeader type seq ack payload.length
    let crc := crc16Update (crc16Update mcLinkCrcInit header) payload
    match (do
      let encoder ← cobsStreamInit (outCap - 1)
      let encoder ← cobsStreamWrite encoder header
      let encoder ← cobsStreamWrite encoder payload
      let encoder ← cobsStreamWrite encoder (leBytes crc)
      cobsStreamFinish encoder) with
    | none => none
    | some encoded =>
      if encoded.length > mcLinkMaxEncodedWithoutDelimiter ∨ encoded.length + 1 > outCap then none
      else some (encoded ++ [mcLinkDelimiter])

/-- The checks of `decode_frame_with_scratch` on the unstuffed body. -/
def mcLinkParseBody (body : List UInt8) : Option McLinkFrame :=
  match body with
  | version :: type :: flags :: seq0 :: seq1 :: ack0 :: ack1 :: len0 :: len1 :: rest =>
    let payloadLen := (ofLeBytes len0 len1).toNat
    if body.length < mcLinkBodyHeaderLen + mcLinkCrcLen then none
    else if version ≠ mcLinkVersion then none
    else if payloadLen > mcLinkMaxPayload then none
    else if body.length ≠ mcLinkBodyHeaderLen + payloadLen + mcLinkCrcLen then none
    else
      match rest.drop payloadLen with
      | crc0 :: crc1 :: _ =>
        if mcLinkCrc16 (body.take (mcLinkBodyHeaderLen + payloadLen)) ≠ ofLeBytes crc0 crc1 then none
        else some { type, flags, seq := ofLeBytes seq0 seq1, ack := ofLeBytes ack0 ack1,
                    payload := rest.take payloadLen }
      | _ => none
  | _ => none

def decodeFrameWithScratch (src : List UInt8) (bodyCap : ℕ) : Option McLinkFrame :=
  if src.length > mcLinkMaxEncodedLen ∨ src.getLast? ≠ some mcLinkDelimiter then none
  else
    let encoded := src.dropLast
    if encoded.length = 0 ∨ encoded.length > mcLinkMaxEncodedWithoutDelimiter then none
    else if mcLinkDelimiter ∈ encoded then none
    else (cobsDecode encoded bodyCap).bind mcLinkParseBody

def mcLinkDecodeFrame (src : List UInt8) : Option McLinkFrame :=
  decodeFrameWithScratch src mcLinkMaxBodyLen

example : mcLinkCrc16 [0x31, 0x32, 0x33, 0x34, 0x35, 0x36, 0x37, 0x38, 0x39] = 0x29b1 := by
  decide +kernel

end StarrySky.Link
