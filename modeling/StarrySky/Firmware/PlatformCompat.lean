import StarrySky.Base.Overflow
import StarrySky.Core.Server
import StarrySky.Link.Parser

/-! The C library functions of `firmware/platform_compat.c`: copying within a memory, and the
division of 64-bit numbers. -/

namespace StarrySky.Firmware
open StarrySky.Base StarrySky.Core StarrySky.Link

/-! `memmove`. -/

/-- `*d++ = *s++`, `n` times. -/
def moveForward (mem : List UInt8) (d s : ℕ) : ℕ → List UInt8
  | 0 => mem
  | n + 1 => moveForward (mem.set d (mem.getD s 0)) (d + 1) (s + 1) n

/-- `*--d = *--s`, `n` times. -/
def moveBackward (mem : List UInt8) (d s : ℕ) : ℕ → List UInt8
  | 0 => mem
  | n + 1 => moveBackward (mem.set (d - 1) (mem.getD (s - 1) 0)) (d - 1) (s - 1) n

/-- The memory after `memmove`; the pointers are offsets into it. -/
def memmove (mem : List UInt8) (dest src n : ℕ) : List UInt8 :=
  if dest = src ∨ n = 0 then mem
  else if dest < src then moveForward mem dest src n
  else moveBackward mem (dest + n) (src + n) n

/-- What a copy of `n` bytes leaves at offset `j`. -/
def moved (mem : List UInt8) (dest src n j : ℕ) : Option UInt8 :=
  if dest ≤ j ∧ j < dest + n then mem[src + (j - dest)]? else mem[j]?

theorem getElem?_set_getD (mem : List UInt8) {d s : ℕ} (hd : d < mem.length) (hs : s < mem.length)
    (j : ℕ) : (mem.set d (mem.getD s 0))[j]? = if d = j then mem[s]? else mem[j]? := by
  rw [List.getElem?_set, if_pos hd, List.getD_eq_getElem?_getD, List.getElem?_eq_getElem hs]
  rfl

theorem moveForward_getElem? {mem : List UInt8} {d s n : ℕ} (hlt : d < s)
    (hs : s + n ≤ mem.length) (j : ℕ) :
    (moveForward mem d s n)[j]? = moved mem d s n j := by
  -- The source is ahead of the destination: what is read next has not been written.
  induction n generalizing mem d s with
  | zero => exact (if_neg (by omega)).symm
  | succ n ih =>
    have hset := getElem?_set_getD mem (d := d) (s := s) (by omega) (by omega)
    rw [moveForward, ih (Nat.succ_lt_succ hlt) (by rw [List.length_set]; omega)]
    simp only [moved, hset]
    by_cases hin : d + 1 ≤ j ∧ j < d + 1 + n
    · have hread : ¬d = s + 1 + (j - (d + 1)) := by omega
      rw [if_pos hin, if_neg hread, if_pos (by omega),
        show s + 1 + (j - (d + 1)) = s + (j - d) by omega]
    rw [if_neg hin]
    by_cases hfirst : d = j
    · rw [if_pos hfirst, if_pos (by omega), hfirst, Nat.sub_self, Nat.add_zero]
    · rw [if_neg hfirst, if_neg (by omega)]

theorem moveBackward_getElem? {mem : List UInt8} {d s n : ℕ} (hlt : s < d)
    (hd : d + n ≤ mem.length) (j : ℕ) :
    (moveBackward mem (d + n) (s + n) n)[j]? = moved mem d s n j := by
  -- The source is behind: the copy runs from the ends.
  induction n generalizing mem with
  | zero => exact (if_neg (by omega)).symm
  | succ n ih =>
    have hset := getElem?_set_getD mem (d := d + n) (s := s + n) (by omega) (by omega)
    show (moveBackward (mem.set (d + n) (mem.getD (s + n) 0)) (d + n) (s + n) n)[j]? = _
    rw [ih (by rw [List.length_set]; omega)]
    simp only [moved, hset]
    by_cases hin : d ≤ j ∧ j < d + n
    · have hread : ¬d + n = s + (j - d) := by omega
      rw [if_pos hin, if_neg hread, if_pos (by omega)]
    rw [if_neg hin]
    by_cases hlast : d + n = j
    · rw [if_pos hlast, if_pos (by omega), show s + (j - d) = s + n by omega]
    · rw [if_neg hlast, if_neg (by omega)]

theorem memmove_getElem? {mem : List UInt8} {dest src n : ℕ} (hdest : dest + n ≤ mem.length)
    (hsrc : src + n ≤ mem.length) (j : ℕ) :
    (memmove mem dest src n)[j]? = moved mem dest src n j := by
  rw [memmove]
  split_ifs with hsame hlt
  · rw [moved]
    split_ifs with hin
    · rcases hsame with rfl | rfl
      · rw [Nat.add_sub_cancel' hin.1]
      · omega
    · rfl
  · exact moveForward_getElem? hlt hsrc j
  · exact moveBackward_getElem? (by omega) hdest j

/-- The destination as bytes, and everything around it. -/
theorem memmove_eq {mem : List UInt8} {dest src n : ℕ} (hdest : dest + n ≤ mem.length)
    (hsrc : src + n ≤ mem.length) :
    memmove mem dest src n = mem.take dest ++ (mem.drop src).take n ++ mem.drop (dest + n) := by
  have htake : (mem.take dest).length = dest := List.length_take_of_le (by omega)
  have hcopy : ((mem.drop src).take n).length = n := by
    rw [List.length_take, List.length_drop]
    omega
  apply List.ext_getElem?
  intro j
  rw [memmove_getElem? hdest hsrc, moved, List.append_assoc, List.getElem?_append, htake,
    List.getElem?_append, hcopy]
  by_cases hbefore : j < dest
  · rw [if_neg (by omega), if_pos hbefore, List.getElem?_take_of_lt hbefore]
  rw [if_neg hbefore]
  by_cases hin : j - dest < n
  · rw [if_pos (by omega), if_pos hin, List.getElem?_take_of_lt hin, List.getElem?_drop]
  · rw [if_neg (by omega), if_neg hin, List.getElem?_drop]
    congr 1
    omega

theorem length_memmove (mem : List UInt8) (dest src n : ℕ) :
    (memmove mem dest src n).length = mem.length := by
  have hforward : ∀ (n : ℕ) (mem : List UInt8) (d s : ℕ),
      (moveForward mem d s n).length = mem.length := by
    intro n
    induction n with
    | zero => exact fun _ _ _ => rfl
    | succ n ih => exact fun mem d s => (ih _ _ _).trans List.length_set
  have hbackward : ∀ (n : ℕ) (mem : List UInt8) (d s : ℕ),
      (moveBackward mem d s n).length = mem.length := by
    intro n
    induction n with
    | zero => exact fun _ _ _ => rfl
    | succ n ih => exact fun mem d s => (ih _ _ _).trans List.length_set
  rw [memmove]
  split_ifs
  · rfl
  · exact hforward n mem dest src
  · exact hbackward n mem (dest + n) (src + n)

/-- A buffer of which the first `len` bytes are in use. -/
structure FilledBuffer where
  bytes : List UInt8
  len : ℕ
  len_le : len ≤ bytes.length

namespace FilledBuffer

def contents (buffer : FilledBuffer) : List UInt8 := buffer.bytes.take buffer.len

def shift (buffer : FilledBuffer) (count : ℕ) : FilledBuffer where
  bytes := memmove buffer.bytes 0 count (buffer.len - count)
  len := buffer.len - count
  len_le := by
    rw [length_memmove]
    exact (Nat.sub_le _ _).trans buffer.len_le

theorem contents_shift (buffer : FilledBuffer) {count : ℕ} (h : count ≤ buffer.len) :
    (buffer.shift count).contents = buffer.contents.drop count := by
  have hle := buffer.len_le
  have hmove := @memmove_eq buffer.bytes 0 count (buffer.len - count) (by omega) (by omega)
  have hlength : ((buffer.bytes.drop count).take (buffer.len - count)).length =
      buffer.len - count := by
    rw [List.length_take, List.length_drop]
    omega
  show (memmove buffer.bytes 0 count (buffer.len - count)).take (buffer.len - count) = _
  rw [hmove, List.take_zero, List.nil_append, List.take_left' hlength, contents, List.drop_take]

end FilledBuffer

/-- `parser_drop` on the parser's buffer. -/
def parserDropBuffer (buffer : FilledBuffer) (count : ℕ) : FilledBuffer :=
  if count ≥ buffer.len then { buffer with len := 0, len_le := Nat.zero_le _ }
  else buffer.shift count

theorem contents_parserDropBuffer (buffer : FilledBuffer) (count : ℕ) :
    (parserDropBuffer buffer count).contents = buffer.contents.drop count := by
  rw [parserDropBuffer]
  split_ifs with h
  · have hlength : buffer.contents.length ≤ count := (List.length_take_le _ _).trans h
    rw [List.drop_eq_nil_of_le hlength]
    exact List.take_zero
  · exact buffer.contents_shift (Nat.le_of_not_le h)

/-- What `mc_server_receive` does with its accumulator after a packet. -/
def rxAccumShift (rxAccum : FilledBuffer) (packet : McPacket) : FilledBuffer :=
  rxAccum.shift packet.frameLen

theorem frameLen_le_of_mcPacketTryRead {src : List UInt8} {packet : McPacket}
    (h : mcPacketTryRead src = some packet) : packet.frameLen ≤ src.length := by
  rw [mcPacketTryRead] at h
  split at h
  · contradiction
  · split_ifs at h with hbody hlength
    cases h
    exact Nat.le_of_not_lt hlength

theorem contents_rxAccumShift {rxAccum : FilledBuffer} {packet : McPacket}
    (h : mcPacketTryRead rxAccum.contents = some packet) :
    (rxAccumShift rxAccum packet).contents = rxAccum.contents.drop packet.frameLen :=
  rxAccum.contents_shift ((frameLen_le_of_mcPacketTryRead h).trans (List.length_take_le _ _))

/-- Overlapping or not, the destination gets the old source, nothing else changes, and what the
two receive paths have not read yet stays. -/
theorem memmove_exact {mem : List UInt8} {dest src n : ℕ} (hdest : dest + n ≤ mem.length)
    (hsrc : src + n ≤ mem.length) :
    (memmove mem dest src n).length = mem.length ∧
    ((memmove mem dest src n).drop dest).take n = (mem.drop src).take n ∧
    (∀ j, ¬(dest ≤ j ∧ j < dest + n) → (memmove mem dest src n)[j]? = mem[j]?) ∧
    (∀ (parser : McLinkParser) (buffer : FilledBuffer) (count : ℕ), parser.buf = buffer.contents →
      (parserDropBuffer buffer count).contents = (parserDrop parser count).buf) ∧
    ∀ (rxAccum : FilledBuffer) (packet : McPacket),
      mcPacketTryRead rxAccum.contents = some packet →
        (rxAccumShift rxAccum packet).contents = rxAccum.contents.drop packet.frameLen := by
  refine ⟨length_memmove mem dest src n, ?_, ?_, ?_, fun _ _ => contents_rxAccumShift⟩
  · have hcopy : ((mem.drop src).take n).length = n := by
      rw [List.length_take, List.length_drop]
      omega
    rw [memmove_eq hdest hsrc, List.append_assoc,
      List.drop_left' (List.length_take_of_le (by omega)), List.take_left' hcopy]
  · intro j hj
    exact (memmove_getElem? hdest hsrc j).trans (if_neg hj)
  · intro parser buffer count hbuf
    rw [contents_parserDropBuffer, parserDrop, hbuf]

theorem memmove_exact_overlap :
    (memmove [1, 2, 3, 4] 1 0 3).length = [1, 2, 3, 4].length ∧
    ((memmove [1, 2, 3, 4] 1 0 3).drop 1).take 3 = ([1, 2, 3, 4].drop 0).take 3 ∧
    (∀ j, ¬(1 ≤ j ∧ j < 1 + 3) → (memmove [1, 2, 3, 4] 1 0 3)[j]? = [1, 2, 3, 4][j]?) ∧
    (∀ (parser : McLinkParser) (buffer : FilledBuffer) (count : ℕ), parser.buf = buffer.contents →
      (parserDropBuffer buffer count).contents = (parserDrop parser count).buf) ∧
    ∀ (rxAccum : FilledBuffer) (packet : McPacket),
      mcPacketTryRead rxAccum.contents = some packet →
        (rxAccumShift rxAccum packet).contents = rxAccum.contents.drop packet.frameLen :=
  memmove_exact (by decide) (by decide)

/-! `__udivdi3` and `__umoddi3`. -/

/-- The loop of `udivmod64`, from the highest bit down. -/
def udivmod64Loop (dividend divisor quotient rem : UInt64) : ℕ → UInt64 × UInt64
  | 0 => (quotient, rem)
  | bit + 1 =>
    let rem := (rem <<< 1) ||| ((dividend >>> UInt64.ofNat bit) &&& 1)
    if rem ≥ divisor then
      udivmod64Loop dividend divisor (quotient ||| (1 <<< UInt64.ofNat bit)) (rem - divisor) bit
    else udivmod64Loop dividend divisor quotient rem bit

/-- The quotient and the remainder that is stored. -/
def udivmod64 (dividend divisor : UInt64) : UInt64 × UInt64 :=
  if divisor = 0 then (0xffffffffffffffff, dividend)
  else udivmod64Loop dividend divisor 0 0 64

def udivdi3 (dividend divisor : UInt64) : UInt64 := (udivmod64 dividend divisor).1

def umoddi3 (dividend divisor : UInt64) : UInt64 := (udivmod64 dividend divisor).2

/-- The loop with checked arithmetic. -/
def udivmod64LoopChecked (dividend divisor quotient rem : UInt64) : ℕ → InRange (UInt64 × UInt64)
  | 0 => .ok (quotient, rem)
  | bit + 1 =>
    (U64.shl rem 1).bind fun doubled =>
    (U64.shr dividend bit).bind fun high =>
    (U64.shl 1 bit).bind fun one =>
      let rem := doubled ||| (high &&& 1)
      if rem ≥ divisor then
        (U64.sub rem divisor).bind fun rem =>
          udivmod64LoopChecked dividend divisor (quotient ||| one) rem bit
      else udivmod64LoopChecked dividend divisor quotient rem bit

def udivmod64Checked (dividend divisor : UInt64) : InRange (UInt64 × UInt64) :=
  if divisor = 0 then .ok (0xffffffffffffffff, dividend)
  else udivmod64LoopChecked dividend divisor 0 0 64

theorem div_mod_two_mul_add {d : ℕ} (hd : 0 < d) (n b : ℕ) (hb : b ≤ 1) :
    (2 * n + b) / d = 2 * (n / d) + (if d ≤ 2 * (n % d) + b then 1 else 0) ∧
      (2 * n + b) % d = 2 * (n % d) + b - (if d ≤ 2 * (n % d) + b then d else 0) := by
  -- One more binary digit of the dividend.
  have hsplit := Nat.div_add_mod n d
  have hlt := Nat.mod_lt n hd
  split_ifs with h
  · apply (Nat.div_mod_unique hd).mpr
    refine ⟨?_, by omega⟩
    rw [Nat.mul_add, Nat.mul_left_comm, Nat.mul_one]
    omega
  · apply (Nat.div_mod_unique hd).mpr
    refine ⟨?_, by omega⟩
    rw [Nat.add_zero, Nat.mul_left_comm]
    omega

/-- The dividend without its low bits, divided so far. -/
structure DividedTo (dividend divisor : UInt64) (bit : ℕ) (quotient rem : UInt64) : Prop where
  toNat_quotient : quotient.toNat = 2 ^ bit * (dividend.toNat / 2 ^ bit / divisor.toNat)
  toNat_rem : rem.toNat = dividend.toNat / 2 ^ bit % divisor.toNat

theorem DividedTo.rem_lt {dividend divisor quotient rem : UInt64} {bit : ℕ}
    (h : DividedTo dividend divisor (bit + 1) quotient rem) : rem.toNat < 2 ^ 63 := by
  have hmod := Nat.mod_le (dividend.toNat / 2 ^ (bit + 1)) divisor.toNat
  have htwo : 2 ^ 1 ≤ 2 ^ (bit + 1) := Nat.pow_le_pow_right (by decide) (Nat.succ_pos bit)
  have hhalf : dividend.toNat / 2 ^ (bit + 1) ≤ dividend.toNat / 2 ^ 1 :=
    Nat.div_le_div_left htwo (by decide)
  have hdividend := dividend.toNat_lt
  rw [h.toNat_rem]
  omega

theorem DividedTo.toNat_next {dividend divisor quotient rem : UInt64} {bit : ℕ} (hbit : bit < 64)
    (h : DividedTo dividend divisor (bit + 1) quotient rem) :
    ((rem <<< 1) ||| ((dividend >>> UInt64.ofNat bit) &&& 1)).toNat =
      2 * rem.toNat + dividend.toNat / 2 ^ bit % 2 := by
  -- The remainder with the next bit of the dividend, which still fits.
  have hrem := h.rem_lt
  have hdouble : (rem <<< 1).toNat = 2 ^ 1 * rem.toNat := by
    rw [Nat.mul_comm]
    exact U64.toNat_shiftLeft (n := 1) (by decide) (by omega)
  have hlow : ((dividend >>> UInt64.ofNat bit) &&& 1).toNat = dividend.toNat / 2 ^ bit % 2 := by
    rw [UInt64.toNat_and, U64.toNat_shiftRight dividend hbit]
    exact Nat.and_two_pow_sub_one_eq_mod _ 1
  have hsmall : dividend.toNat / 2 ^ bit % 2 < 2 ^ 1 := Nat.mod_lt _ (by decide)
  rw [UInt64.toNat_or, hdouble, hlow, ← Nat.two_pow_add_eq_or_of_lt hsmall, pow_one]

theorem DividedTo.step {dividend divisor quotient rem : UInt64} {bit : ℕ} (hbit : bit < 64)
    (hdivisor : divisor ≠ 0) (h : DividedTo dividend divisor (bit + 1) quotient rem) :
    DividedTo dividend divisor bit
      (if (rem <<< 1) ||| ((dividend >>> UInt64.ofNat bit) &&& 1) ≥ divisor then
        quotient ||| (1 <<< UInt64.ofNat bit) else quotient)
      (if (rem <<< 1) ||| ((dividend >>> UInt64.ofNat bit) &&& 1) ≥ divisor then
        ((rem <<< 1) ||| ((dividend >>> UInt64.ofNat bit) &&& 1)) - divisor
      else (rem <<< 1) ||| ((dividend >>> UInt64.ofNat bit) &&& 1)) := by
  have hpos : 0 < divisor.toNat :=
    Nat.pos_of_ne_zero fun hzero => hdivisor (UInt64.toNat_inj.mp hzero)
  have hnext := h.toNat_next hbit
  have hrem := h.toNat_rem
  have hquotient := h.toNat_quotient
  generalize (rem <<< 1) ||| ((dividend >>> UInt64.ofNat bit) &&& 1) = next at *
  have hdigits : dividend.toNat / 2 ^ bit =
      2 * (dividend.toNat / 2 ^ (bit + 1)) + dividend.toNat / 2 ^ bit % 2 := by
    rw [pow_succ, ← Nat.div_div_eq_div_mul]
    exact (Nat.div_add_mod _ 2).symm
  have hdigit : dividend.toNat / 2 ^ bit % 2 ≤ 1 := Nat.le_of_lt_succ (Nat.mod_lt _ (by decide))
  obtain ⟨hdiv, hmod⟩ :=
    div_mod_two_mul_add hpos (dividend.toNat / 2 ^ (bit + 1)) _ hdigit
  rw [← hdigits, ← hrem, ← hnext] at hdiv hmod
  by_cases hge : next ≥ divisor
  · have hle : divisor.toNat ≤ next.toNat := UInt64.le_iff_toNat_le.mp hge
    have hone : ((1 : UInt64) <<< UInt64.ofNat bit).toNat = 2 ^ bit := by
      rw [U64.toNat_shiftLeft hbit (by simpa using Nat.pow_lt_pow_right (by decide) hbit)]
      exact Nat.one_mul _
    rw [if_pos hle] at hdiv hmod
    rw [if_pos hge, if_pos hge]
    constructor
    · -- the new digit is below all earlier ones
      have hlt : 2 ^ bit < 2 ^ (bit + 1) := Nat.pow_lt_pow_right (by decide) (Nat.lt_succ_self bit)
      rw [UInt64.toNat_or, hone, hquotient, ← Nat.two_pow_add_eq_or_of_lt hlt, hdiv]
      ring
    · rw [UInt64.toNat_sub_of_le _ _ hge, hmod]
  · have hlt : ¬divisor.toNat ≤ next.toNat := fun hle => hge (UInt64.le_iff_toNat_le.mpr hle)
    rw [if_neg hlt] at hdiv hmod
    rw [if_neg hge, if_neg hge]
    constructor
    · rw [hquotient, hdiv]
      ring
    · rw [hmod, Nat.sub_zero]

theorem udivmod64Loop_spec {dividend divisor quotient rem : UInt64} {bit : ℕ} (hbit : bit ≤ 64)
    (hdivisor : divisor ≠ 0) (h : DividedTo dividend divisor bit quotient rem) :
    DividedTo dividend divisor 0 (udivmod64Loop dividend divisor quotient rem bit).1
        (udivmod64Loop dividend divisor quotient rem bit).2 ∧
      udivmod64LoopChecked dividend divisor quotient rem bit =
        .ok (udivmod64Loop dividend divisor quotient rem bit) := by
  induction bit generalizing quotient rem with
  | zero => exact ⟨h, rfl⟩
  | succ bit ih =>
    have hlt : bit < 64 := hbit
    have hrem := h.rem_lt
    have hnext := h.step hlt hdivisor
    have hdouble : U64.shl rem 1 = .ok (rem <<< 1) := U64.shl_of_lt (by decide) (by omega)
    have hone : U64.shl 1 bit = .ok (1 <<< UInt64.ofNat bit) :=
      U64.shl_of_lt hlt (by simpa using Nat.pow_lt_pow_right (by decide) hlt)
    rw [udivmod64Loop, udivmod64LoopChecked, hdouble, bind_ok, U64.shr_of_lt dividend hlt, bind_ok,
      hone, bind_ok]
    dsimp only
    by_cases hge : (rem <<< 1) ||| ((dividend >>> UInt64.ofNat bit) &&& 1) ≥ divisor
    · rw [if_pos hge, if_pos hge] at hnext
      rw [if_pos hge, if_pos hge, U64.sub, if_pos hge, bind_ok]
      exact ih hlt.le hnext
    · rw [if_neg hge, if_neg hge] at hnext
      rw [if_neg hge, if_neg hge]
      exact ih hlt.le hnext

/-- Exact quotient and remainder, and no bit of a remainder is shifted out. -/
theorem udivmod64_exact (dividend : UInt64) {divisor : UInt64} (h : divisor ≠ 0) :
    dividend.toNat = (udivmod64 dividend divisor).1.toNat * divisor.toNat +
        (udivmod64 dividend divisor).2.toNat ∧
      (udivmod64 dividend divisor).2.toNat < divisor.toNat ∧
      (udivdi3 dividend divisor).toNat = dividend.toNat / divisor.toNat ∧
      (umoddi3 dividend divisor).toNat = dividend.toNat % divisor.toNat ∧
      udivmod64Checked dividend divisor = .ok (udivmod64 dividend divisor) := by
  have hpos : 0 < divisor.toNat := Nat.pos_of_ne_zero fun hzero => h (UInt64.toNat_inj.mp hzero)
  have hstart : DividedTo dividend divisor 64 0 0 := by
    have hzero : dividend.toNat / 2 ^ 64 = 0 := Nat.div_eq_of_lt dividend.toNat_lt
    constructor
    · rw [hzero, Nat.zero_div]
      rfl
    · rw [hzero, Nat.zero_mod]
      rfl
  obtain ⟨hend, hchecked⟩ := udivmod64Loop_spec (Nat.le_refl 64) h hstart
  have hloop : udivmod64 dividend divisor = udivmod64Loop dividend divisor 0 0 64 := if_neg h
  have hquotient : (udivmod64 dividend divisor).1.toNat = dividend.toNat / divisor.toNat := by
    rw [hloop, hend.toNat_quotient, pow_zero, Nat.one_mul, Nat.div_one]
  have hrem : (udivmod64 dividend divisor).2.toNat = dividend.toNat % divisor.toNat := by
    rw [hloop, hend.toNat_rem, pow_zero, Nat.div_one]
  refine ⟨?_, ?_, hquotient, hrem, ?_⟩
  · rw [hquotient, hrem, Nat.mul_comm]
    exact (Nat.div_add_mod _ _).symm
  · rw [hrem]
    exact Nat.mod_lt _ hpos
  · rw [udivmod64Checked, if_neg h, hchecked, hloop]

/-- A divisor with its highest bit set. -/
theorem udivmod64_exact_large :
    (0xffffffffffffffff : UInt64).toNat =
        (udivmod64 0xffffffffffffffff 0x8000000000000001).1.toNat *
            (0x8000000000000001 : UInt64).toNat +
          (udivmod64 0xffffffffffffffff 0x8000000000000001).2.toNat ∧
      (udivmod64 0xffffffffffffffff 0x8000000000000001).2.toNat <
        (0x8000000000000001 : UInt64).toNat ∧
      (udivdi3 0xffffffffffffffff 0x8000000000000001).toNat =
        (0xffffffffffffffff : UInt64).toNat / (0x8000000000000001 : UInt64).toNat ∧
      (umoddi3 0xffffffffffffffff 0x8000000000000001).toNat =
        (0xffffffffffffffff : UInt64).toNat % (0x8000000000000001 : UInt64).toNat ∧
      udivmod64Checked 0xffffffffffffffff 0x8000000000000001 =
        .ok (udivmod64 0xffffffffffffffff 0x8000000000000001) :=
  udivmod64_exact 0xffffffffffffffff (by decide)

end StarrySky.Firmware
