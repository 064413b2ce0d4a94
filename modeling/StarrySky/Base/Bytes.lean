import Mathlib

/-! Little-endian 16-bit fields as the two bytes a wire format stores. -/

namespace StarrySky.Base

/-- The two bytes of `v`, low byte first. -/
def leBytes (v : UInt16) : List UInt8 := [v.toUInt8, (v >>> 8).toUInt8]

/-- The value whose low byte is `lo` and whose high byte is `hi`. -/
def ofLeBytes (lo hi : UInt8) : UInt16 := lo.toUInt16 ||| (hi.toUInt16 <<< 8)

@[simp] theorem length_leBytes (v : UInt16) : (leBytes v).length = 2 := rfl

theorem toNat_ofLeBytes (lo hi : UInt8) :
    (ofLeBytes lo hi).toNat = lo.toNat + 256 * hi.toNat := by
  have hlo := lo.toNat_lt
  have hhi := hi.toNat_lt
  have hshift : (hi.toNat <<< 8) % 65536 = 2 ^ 8 * hi.toNat := by
    rw [Nat.shiftLeft_eq]
    omega
  simp only [ofLeBytes, UInt16.toNat_or, UInt16.toNat_shiftLeft, UInt8.toNat_toUInt16,
    UInt16.reduceToNat, Nat.reduceMod, Nat.reducePow, hshift]
  rw [Nat.or_comm, ← Nat.two_pow_add_eq_or_of_lt (by omega : lo.toNat < 2 ^ 8) hi.toNat]
  omega

theorem ofLeBytes_leBytes (v : UInt16) :
    ofLeBytes v.toUInt8 (v >>> 8).toUInt8 = v := by
  apply UInt16.toNat_inj.mp
  have hv := v.toNat_lt
  simp only [toNat_ofLeBytes, UInt16.toNat_toUInt8, UInt16.toNat_shiftRight, UInt16.reduceToNat,
    Nat.reduceMod, Nat.shiftRight_eq_div_pow, Nat.reducePow]
  omega

end StarrySky.Base
