import StarrySky.Core.Varint

/-! Packet bodies and the length-prefixed frames around them, `core/src/mc_packet.c`.
Floating-point numbers are their bit patterns: the code only copies them. -/

namespace StarrySky.Core
open StarrySky.Base

abbrev mcMaxPacketBody : ℕ := 32768
abbrev mcMaxStringBytes : ℕ := 32767

abbrev Float32Bits := UInt32
abbrev Float64Bits := UInt64

/-- The bytes of a text. -/
def cText (text : String) : List UInt8 := text.toList.map fun c => UInt8.ofNat c.toNat

/-- What a C function sees of a buffer: the bytes before the first NUL. -/
def cString (bytes : List UInt8) : List UInt8 := bytes.takeWhile (· ≠ 0)

structure McWriter where
  cap : ℕ
  buf : List UInt8
deriving DecidableEq

namespace McWriter

def init (cap : ℕ) : McWriter := { cap, buf := [] }

def hasSpace (w : McWriter) (len : ℕ) : Bool := w.buf.length ≤ w.cap ∧ len ≤ w.cap - w.buf.length

def writeBytes (w : McWriter) (src : List UInt8) : Option McWriter :=
  if w.hasSpace src.length then some { w with buf := w.buf ++ src } else none

def writeU8 (w : McWriter) (value : UInt8) : Option McWriter := w.writeBytes [value]

def writeI8 (w : McWriter) (value : Int8) : Option McWriter := w.writeU8 value.toUInt8

def writeU16 (w : McWriter) (value : UInt16) : Option McWriter :=
  if w.hasSpace 2 then
    [(8 : UInt16), 0].foldlM (fun w shift => w.writeU8 (value >>> shift).toUInt8) w
  else none

def writeU32 (w : McWriter) (value : UInt32) : Option McWriter :=
  if w.hasSpace 4 then
    [(24 : UInt32), 16, 8, 0].foldlM (fun w shift => w.writeU8 (value >>> shift).toUInt8) w
  else none

def writeU64 (w : McWriter) (value : UInt64) : Option McWriter :=
  if w.hasSpace 8 then
    [(56 : UInt64), 48, 40, 32, 24, 16, 8, 0].foldlM (fun w shift => w.writeU8 (value >>> shift).toUInt8) w
  else none

def writeI32 (w : McWriter) (value : Int32) : Option McWriter := w.writeU32 value.toUInt32

def writeI64 (w : McWriter) (value : Int64) : Option McWriter := w.writeU64 value.toUInt64

def writeF32 (w : McWriter) (value : Float32Bits) : Option McWriter := w.writeU32 value

def writeF64 (w : McWriter) (value : Float64Bits) : Option McWriter := w.writeU64 value

def writeBool (w : McWriter) (value : Bool) : Option McWriter := w.writeU8 (if value then 1 else 0)

def writeVarint (w : McWriter) (value : Int32) : Option McWriter :=
  (mcVarintEncode value 5).bind w.writeBytes

/-- `str` is a C string, given by the bytes before its NUL. -/
def writeString (w : McWriter) (str : List UInt8) : Option McWriter :=
  if str.length > mcMaxStringBytes then none
  else (w.writeVarint (Int32.ofNat str.length)).bind fun w => w.writeBytes str

end McWriter

def mcPacketFrameLen (bodyLen : ℕ) : ℕ :=
  if bodyLen > mcMaxPacketBody then 0
  else
    match mcVarintEncode (Int32.ofNat bodyLen) 5 with
    | none => 0
    | some header => header.length + bodyLen

def mcPacketCompressedPlainFrameLen (bodyLen : ℕ) : ℕ :=
  if bodyLen > mcMaxPacketBody then 0
  else
    match mcVarintEncode (Int32.ofNat (1 + bodyLen)) 5 with
    | none => 0
    | some outer => outer.length + (1 + bodyLen)

structure McPacket where
  body : List UInt8
  frameLen : ℕ
deriving DecidableEq

def mcPacketTryRead (src : List UInt8) : Option McPacket :=
  match mcVarintDecode src with
  | none => none
  | some (bodyLen, headerLen) =>
    if bodyLen < 0 ∨ bodyLen.toNatClampNeg > mcMaxPacketBody then none
    else if src.length < headerLen + bodyLen.toNatClampNeg then none
    else
      some { body := (src.drop headerLen).take bodyLen.toNatClampNeg
             frameLen := headerLen + bodyLen.toNatClampNeg }

/-- The body of a compressed-format frame and its data length. -/
def mcPacketGetCompressedBody (frameBody : List UInt8) : Option (List UInt8 × Int32) :=
  match mcVarintDecode frameBody with
  | none => none
  | some (decoded, used) =>
    if used > frameBody.length then none
    else if decoded < 0 ∨ decoded.toNatClampNeg > mcMaxPacketBody then none
    else some (frameBody.drop used, decoded)

def plainFrame (body : List UInt8) : List UInt8 :=
  varintBytes (Int32.ofNat body.length) ++ body

def compressedFrame (dataLen : Int32) (payload : List UInt8) : List UInt8 :=
  plainFrame (varintBytes dataLen ++ payload)

theorem mcPacketFrameLen_eq {body : List UInt8} (h : body.length ≤ mcMaxPacketBody) :
    mcPacketFrameLen body.length = (plainFrame body).length := by
  rw [mcPacketFrameLen, if_neg (Nat.not_lt.mpr h), mcVarintEncode_eq, plainFrame,
    List.length_append]

theorem varintBytes_zero : varintBytes 0 = [0] := rfl

theorem mcPacketCompressedPlainFrameLen_eq {body : List UInt8}
    (h : body.length ≤ mcMaxPacketBody) :
    mcPacketCompressedPlainFrameLen body.length = (compressedFrame 0 body).length := by
  rw [mcPacketCompressedPlainFrameLen, if_neg (Nat.not_lt.mpr h), mcVarintEncode_eq,
    compressedFrame, varintBytes_zero, plainFrame, List.singleton_append, List.length_append,
    List.length_cons, Nat.add_comm 1]

end StarrySky.Core
