import Mathlib

/-! Variable-length integers: little-endian groups of seven bits, each byte but the
last with its top bit set. Leading zero groups are allowed, so a number has many
encodings; a prefix of an encoding is none. -/

namespace StarrySky.Base

theorem and_7f_toNat (byte : UInt8) : (byte &&& 0x7f).toNat = byte.toNat % 128 := by
  rw [UInt8.toNat_and]
  exact Nat.and_two_pow_sub_one_eq_mod byte.toNat 7

theorem and_80_eq_zero (byte : UInt8) : byte &&& 0x80 = 0 ↔ byte.toNat < 128 := by
  have h : ∀ n : Fin 256, (UInt8.ofNat n.val &&& 0x80 = 0) ↔ n.val < 128 := by decide +kernel
  have := h ⟨byte.toNat, byte.toNat_lt⟩
  simpa using this

inductive IsVarint : List UInt8 → ℕ → Prop
  | last (byte : UInt8) (h : byte.toNat < 128) : IsVarint [byte] byte.toNat
  | more (byte : UInt8) (h : 128 ≤ byte.toNat) {bytes : List UInt8} {value : ℕ}
      (hbytes : IsVarint bytes value) :
      IsVarint (byte :: bytes) (byte.toNat - 128 + 128 * value)

theorem IsVarint.length_pos {bytes : List UInt8} {value : ℕ} (h : IsVarint bytes value) :
    0 < bytes.length := by
  cases h <;> simp

theorem IsVarint.unique {bytes bytes' rest rest' : List UInt8} {value value' : ℕ}
    (h : IsVarint bytes value) (h' : IsVarint bytes' value') (heq : bytes ++ rest = bytes' ++ rest') :
    bytes = bytes' ∧ value = value' ∧ rest = rest' := by
  -- Encodings at the start of the same stream are the same.
  induction h generalizing bytes' value' with
  | last byte hlt =>
    cases h' with
    | last byte' hlt' =>
      simp only [List.cons_append, List.nil_append, List.cons.injEq] at heq
      obtain ⟨rfl, rfl⟩ := heq
      exact ⟨rfl, rfl, rfl⟩
    | more byte' hge' hbytes' =>
      simp only [List.cons_append, List.cons.injEq] at heq
      rw [heq.1] at hlt
      omega
  | more byte hge hbytes ih =>
    cases h' with
    | last byte' hlt' =>
      simp only [List.cons_append, List.cons.injEq] at heq
      rw [heq.1] at hge
      omega
    | more byte' hge' hbytes' =>
      simp only [List.cons_append, List.cons.injEq] at heq
      obtain ⟨rfl, heq⟩ := heq
      obtain ⟨rfl, rfl, rfl⟩ := ih hbytes' heq
      exact ⟨rfl, rfl, rfl⟩

theorem IsVarint.all_more {bytes : List UInt8} {value : ℕ} (h : IsVarint bytes value)
    {part : List UInt8} (hpre : part <+: bytes) (hne : part ≠ bytes) :
    ∀ byte ∈ part, 128 ≤ byte.toNat := by
  induction h generalizing part with
  | last byte hlt =>
    obtain ⟨rest, hrest⟩ := hpre
    cases part with
    | nil => exact fun _ h => absurd h List.not_mem_nil
    | cons b bs =>
      simp only [List.cons_append, List.cons.injEq, List.append_eq_nil_iff] at hrest
      exact absurd (by rw [hrest.1, hrest.2.1]) hne
  | more byte hge hbytes ih =>
    obtain ⟨rest, hrest⟩ := hpre
    cases part with
    | nil => exact fun _ h => absurd h List.not_mem_nil
    | cons b bs =>
      simp only [List.cons_append, List.cons.injEq] at hrest
      obtain ⟨rfl, hrest⟩ := hrest
      have hbs : bs ≠ _ := fun heq => hne (by rw [heq])
      intro c hc
      rcases List.mem_cons.mp hc with rfl | hc
      · exact hge
      · exact ih ⟨rest, hrest⟩ hbs c hc

theorem IsVarint.value_lt {bytes : List UInt8} {value : ℕ} (h : IsVarint bytes value) :
    value < 128 ^ bytes.length := by
  induction h with
  | last byte hlt => simpa using hlt
  | more byte hge _ ih =>
    have hbyte := byte.toNat_lt
    rw [List.length_cons, pow_succ]
    omega

theorem exists_isVarint {bytes : List UInt8} (h : ∃ byte ∈ bytes, byte.toNat < 128) :
    ∃ encoding rest value, bytes = encoding ++ rest ∧ IsVarint encoding value := by
  induction bytes with
  | nil => simp at h
  | cons byte bytes ih =>
    by_cases hlt : byte.toNat < 128
    · exact ⟨[byte], bytes, byte.toNat, rfl, .last byte hlt⟩
    · obtain ⟨last, hmem, hlast⟩ := h
      have htail : last ∈ bytes := by
        rcases List.mem_cons.mp hmem with rfl | htail
        · exact absurd hlast hlt
        · exact htail
      obtain ⟨encoding, rest, value, rfl, hencoding⟩ := ih ⟨last, htail, hlast⟩
      exact ⟨byte :: encoding, rest, _, rfl, .more byte (Nat.le_of_not_lt hlt) hencoding⟩

/-- The number a stream starts with, and what follows it. -/
def takeVarint : List UInt8 → Option (ℕ × List UInt8)
  | [] => none
  | byte :: bytes =>
    if byte.toNat < 128 then some (byte.toNat, bytes)
    else
      match takeVarint bytes with
      | none => none
      | some (value, rest) => some (byte.toNat - 128 + 128 * value, rest)

theorem IsVarint.take {bytes : List UInt8} {value : ℕ} (h : IsVarint bytes value)
    (rest : List UInt8) : takeVarint (bytes ++ rest) = some (value, rest) := by
  induction h with
  | last byte hlt => rw [List.singleton_append, takeVarint, if_pos hlt]
  | more byte hge _ ih => rw [List.cons_append, takeVarint, if_neg (Nat.not_lt.mpr hge), ih]

end StarrySky.Base
