import Mathlib

/-! Machine arithmetic that checks its range: a function written with it fails exactly when a value
would leave its type or a shift amount would reach the width. -/

namespace StarrySky.Base

inductive Overflow
  | value
  | shift
deriving DecidableEq

abbrev InRange (α : Type) := Except Overflow α

theorem bind_ok {α β : Type} (a : α) (f : α → InRange β) : (Except.ok a : InRange α).bind f = f a := rfl

theorem map_ok {α β : Type} (a : α) (f : α → β) : (Except.ok a : InRange α).map f = .ok (f a) := rfl

/-- A result whose exact value must fit `width` bits. -/
def fits {α : Type} (width exact : ℕ) (result : α) : InRange α :=
  if exact < 2 ^ width then .ok result else .error .value

theorem fits_of_lt {α : Type} {width exact : ℕ} (h : exact < 2 ^ width) (result : α) :
    fits width exact result = .ok result := if_pos h

namespace U64

def add (a b : UInt64) : InRange UInt64 := fits 64 (a.toNat + b.toNat) (a + b)

def mul (a b : UInt64) : InRange UInt64 := fits 64 (a.toNat * b.toNat) (a * b)

def sub (a b : UInt64) : InRange UInt64 := if b ≤ a then .ok (a - b) else .error .value

def shl (a : UInt64) (n : ℕ) : InRange UInt64 :=
  if n < 64 then fits 64 (a.toNat * 2 ^ n) (a <<< UInt64.ofNat n) else .error .shift

def shr (a : UInt64) (n : ℕ) : InRange UInt64 :=
  if n < 64 then .ok (a >>> UInt64.ofNat n) else .error .shift

theorem toNat_shiftLeft {a : UInt64} {n : ℕ} (hn : n < 64) (h : a.toNat * 2 ^ n < 2 ^ 64) :
    (a <<< UInt64.ofNat n).toNat = a.toNat * 2 ^ n := by
  rw [UInt64.toNat_shiftLeft, UInt64.toNat_ofNat', Nat.mod_eq_of_lt (by omega : n < 2 ^ 64),
    Nat.mod_eq_of_lt hn, Nat.shiftLeft_eq, Nat.mod_eq_of_lt h]

theorem toNat_shiftRight (a : UInt64) {n : ℕ} (hn : n < 64) :
    (a >>> UInt64.ofNat n).toNat = a.toNat / 2 ^ n := by
  rw [UInt64.toNat_shiftRight, UInt64.toNat_ofNat', Nat.mod_eq_of_lt (by omega : n < 2 ^ 64),
    Nat.mod_eq_of_lt hn, Nat.shiftRight_eq_div_pow]

theorem add_of_lt {a b : UInt64} (h : a.toNat + b.toNat < 2 ^ 64) : add a b = .ok (a + b) :=
  fits_of_lt h _

theorem mul_of_lt {a b : UInt64} (h : a.toNat * b.toNat < 2 ^ 64) : mul a b = .ok (a * b) :=
  fits_of_lt h _

theorem shl_of_lt {a : UInt64} {n : ℕ} (hn : n < 64) (h : a.toNat * 2 ^ n < 2 ^ 64) :
    shl a n = .ok (a <<< UInt64.ofNat n) := by
  rw [shl, if_pos hn, fits_of_lt h]

theorem shr_of_lt (a : UInt64) {n : ℕ} (hn : n < 64) : shr a n = .ok (a >>> UInt64.ofNat n) :=
  if_pos hn

end U64

namespace U32

def add (a b : UInt32) : InRange UInt32 := fits 32 (a.toNat + b.toNat) (a + b)

def mul (a b : UInt32) : InRange UInt32 := fits 32 (a.toNat * b.toNat) (a * b)

def sub (a b : UInt32) : InRange UInt32 := if b ≤ a then .ok (a - b) else .error .value

theorem add_of_lt {a b : UInt32} (h : a.toNat + b.toNat < 2 ^ 32) : add a b = .ok (a + b) :=
  fits_of_lt h _

theorem mul_of_lt {a b : UInt32} (h : a.toNat * b.toNat < 2 ^ 32) : mul a b = .ok (a * b) :=
  fits_of_lt h _

theorem sub_of_le {a b : UInt32} (h : b.toNat ≤ a.toNat) : sub a b = .ok (a - b) :=
  if_pos (UInt32.le_iff_toNat_le.mpr h)

end U32

namespace I32

/-- A result whose exact value must be that of a signed 32-bit integer. -/
def fits (exact : ℤ) (result : Int32) : InRange Int32 :=
  if -2 ^ 31 ≤ exact ∧ exact < 2 ^ 31 then .ok result else .error .value

def add (a b : Int32) : InRange Int32 := fits (a.toInt + b.toInt) (a + b)

def mul (a b : Int32) : InRange Int32 := fits (a.toInt * b.toInt) (a * b)

end I32

def countCharacter (length n : ℕ) : InRange ℕ := if n < length then .ok (n + 1) else .error .value

theorem countCharacter_of_lt {length n : ℕ} (h : n < length) :
    countCharacter length n = .ok (n + 1) := if_pos h

end StarrySky.Base
