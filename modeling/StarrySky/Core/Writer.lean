import StarrySky.Base.Bounded
import StarrySky.Core.Packet

/-! What a writer appends when there is room for it. -/

namespace StarrySky.Core.McWriter
open StarrySky.Base

instance : Bounded McWriter := ⟨McWriter.cap, fun w => w.buf.length⟩

theorem hasSpace_of_le {w : McWriter} {len : ℕ} (h : w.buf.length + len ≤ w.cap) :
    w.hasSpace len = true := by
  rw [hasSpace, decide_eq_true_eq]
  omega

theorem writeBytes_of_le {w : McWriter} {src : List UInt8}
    (h : w.buf.length + src.length ≤ w.cap) :
    w.writeBytes src = some { w with buf := w.buf ++ src } := by
  rw [writeBytes, if_pos (hasSpace_of_le h)]

theorem writeVarint_of_le {w : McWriter} {value : Int32}
    (h : w.buf.length + (varintBytes value).length ≤ w.cap) :
    w.writeVarint value = some { w with buf := w.buf ++ varintBytes value } := by
  rw [writeVarint, mcVarintEncode_eq, Option.bind_some, writeBytes_of_le h]

def stringBytes (str : List UInt8) : List UInt8 := varintBytes (Int32.ofNat str.length) ++ str

theorem writeString_of_le {w : McWriter} {str : List UInt8} (hlen : str.length ≤ mcMaxStringBytes)
    (h : w.buf.length + (stringBytes str).length ≤ w.cap) :
    w.writeString str = some { w with buf := w.buf ++ stringBytes str } := by
  rw [stringBytes, List.length_append, ← Nat.add_assoc] at h
  have hvarint : w.buf.length + (varintBytes (Int32.ofNat str.length)).length ≤ w.cap :=
    (Nat.le_add_right _ _).trans h
  have hbytes : (w.buf ++ varintBytes (Int32.ofNat str.length)).length + str.length ≤ w.cap := by
    rw [List.length_append]
    exact h
  rw [writeString, if_neg (Nat.not_lt.mpr hlen), writeVarint_of_le hvarint, Option.bind_some,
    writeBytes_of_le hbytes, List.append_assoc]
  rfl

theorem length_stringBytes_le (str : List UInt8) : (stringBytes str).length ≤ 5 + str.length := by
  rw [stringBytes, List.length_append]
  exact Nat.add_le_add_right (length_varintBytes_le _) _

theorem writeBytes_adds {w : McWriter} {src : List UInt8}
    (h : w.buf.length + src.length < w.cap) : Adds src.length w (w.writeBytes src) := by
  refine ⟨_, writeBytes_of_le h.le, rfl, ?_⟩
  show (w.buf ++ src).length ≤ w.buf.length + src.length
  rw [List.length_append]

theorem writeU8_adds (w : McWriter) (value : UInt8) (h : w.buf.length + 1 < w.cap) :
    Adds 1 w (w.writeU8 value) := writeBytes_adds h

theorem writeU32_adds {w : McWriter} (value : UInt32) (h : w.buf.length + 4 < w.cap) :
    Adds 4 w (w.writeU32 value) := by
  rw [writeU32, if_pos (hasSpace_of_le h.le)]
  exact adds_foldlM (fun w shift => writeU8_adds w (value >>> shift).toUInt8) h

theorem writeU64_adds {w : McWriter} (value : UInt64) (h : w.buf.length + 8 < w.cap) :
    Adds 8 w (w.writeU64 value) := by
  rw [writeU64, if_pos (hasSpace_of_le h.le)]
  exact adds_foldlM (fun w shift => writeU8_adds w (value >>> shift).toUInt8) h

theorem writeVarint_adds {w : McWriter} (value : Int32) (h : w.buf.length + 5 < w.cap) :
    Adds 5 w (w.writeVarint value) := by
  have hlength := length_varintBytes_le value
  rw [writeVarint, mcVarintEncode_eq, Option.bind_some]
  exact (writeBytes_adds (by omega)).mono hlength

end StarrySky.Core.McWriter
