import Mathlib

/-! Cyclic redundancy checks: a linear feedback register on bit vectors, and the error patterns
that it never leaves at zero. -/

namespace StarrySky.Base.Crc

variable {w : ℕ}

/-- One shift of the register; `poly` is the generator without its leading term. -/
def shift (poly c : BitVec w) : BitVec w := if c.msb then (c <<< 1) ^^^ poly else c <<< 1

/-- A bit of the message, where it enters the register. -/
def topBit (w : ℕ) (b : Bool) : BitVec w := if b then BitVec.twoPow w (w - 1) else 0#w

def register (poly c : BitVec w) (bits : List Bool) : BitVec w :=
  bits.foldl (fun c b => shift poly (c ^^^ topBit w b)) c

/-- The register that holds the given bits, the first one on top. -/
def word (w : ℕ) : List Bool → BitVec w
  | [] => 0#w
  | b :: bits => topBit w b ^^^ (word w bits >>> 1)

theorem xor_xor_xor_cancel (a b p : BitVec w) : (a ^^^ p) ^^^ (b ^^^ p) = a ^^^ b := by
  rw [BitVec.xor_comm b p, BitVec.xor_assoc, ← BitVec.xor_assoc p p b, BitVec.xor_self,
    BitVec.zero_xor]

theorem xor_xor_xor_comm (a b c d : BitVec w) :
    (a ^^^ b) ^^^ (c ^^^ d) = (a ^^^ c) ^^^ (b ^^^ d) := by
  ac_rfl

theorem shift_xor (poly a b : BitVec w) :
    shift poly (a ^^^ b) = shift poly a ^^^ shift poly b := by
  simp only [shift, BitVec.msb_xor, BitVec.shiftLeft_xor_distrib]
  cases a.msb with
  | false =>
    cases b.msb with
    | false => rfl
    | true => exact BitVec.xor_assoc _ _ _
  | true =>
    cases b.msb with
    | false =>
      show (a <<< 1 ^^^ b <<< 1) ^^^ poly = (a <<< 1 ^^^ poly) ^^^ b <<< 1
      ac_rfl
    | true => exact (xor_xor_xor_cancel _ _ _).symm

theorem shift_zero (poly : BitVec w) : shift poly 0#w = 0#w := by simp [shift]

theorem iterate_shift_zero (poly : BitVec w) (n : ℕ) : (shift poly)^[n] 0#w = 0#w :=
  Function.iterate_fixed (shift_zero poly) n

theorem iterate_shift_xor (poly a b : BitVec w) (n : ℕ) :
    (shift poly)^[n] (a ^^^ b) = (shift poly)^[n] a ^^^ (shift poly)^[n] b := by
  induction n generalizing a b with
  | zero => rfl
  | succ n ih => rw [Function.iterate_succ_apply, shift_xor, ih]; rfl

theorem register_xor (poly : BitVec w) (xs : List Bool) :
    ∀ (ys : List Bool) (a b : BitVec w), xs.length = ys.length →
      register poly (a ^^^ b) (xs.zipWith xor ys) = register poly a xs ^^^ register poly b ys := by
  -- Two messages are checked bit by bit.
  induction xs with
  | nil =>
    intro ys a b hlength
    rw [List.eq_nil_of_length_eq_zero hlength.symm]
    rfl
  | cons x xs ih =>
    intro ys a b hlength
    cases ys with
    | nil => exact absurd hlength (by simp)
    | cons y ys =>
      have htop : topBit w (xor x y) = topBit w x ^^^ topBit w y := by
        cases x <;> cases y <;> simp [topBit]
      show register poly (shift poly (a ^^^ b ^^^ topBit w (xor x y))) (xs.zipWith xor ys) = _
      rw [htop, xor_xor_xor_comm, shift_xor]
      exact ih ys _ _ (Nat.succ.inj hlength)

theorem register_append (poly c : BitVec w) (xs ys : List Bool) :
    register poly c (xs ++ ys) = register poly (register poly c xs) ys :=
  List.foldl_append

theorem register_replicate_false (poly c : BitVec w) (n : ℕ) :
    register poly c (List.replicate n false) = (shift poly)^[n] c := by
  induction n generalizing c with
  | zero => rfl
  | succ n ih =>
    show register poly (shift poly (c ^^^ topBit w false)) (List.replicate n false) = _
    rw [ih, Function.iterate_succ_apply]
    simp [topBit]

theorem eq_zero_of_shift_eq_zero {poly a : BitVec w} (hpoly : poly.getLsbD 0 = true)
    (h : shift poly a = 0#w) : a = 0#w := by
  have hbit : ∀ i, (shift poly a).getLsbD i = false := by
    intro i
    rw [h]
    exact BitVec.getLsbD_zero
  have hmsb : a.msb = false := by
    by_contra hmsb
    have hzero := hbit 0
    rw [shift, if_pos (by simpa using hmsb), BitVec.getLsbD_xor, hpoly] at hzero
    simp at hzero
  -- without an overflow every bit below the top one reappears one place higher
  apply BitVec.eq_of_getLsbD_eq
  intro i hi
  rw [BitVec.getLsbD_zero]
  by_cases htop : i + 1 = w
  · rw [BitVec.msb_eq_getLsbD_last] at hmsb
    rwa [show w - 1 = i by omega] at hmsb
  · have hnext := hbit (i + 1)
    rw [shift, if_neg (by simp [hmsb]), BitVec.getLsbD_shiftLeft] at hnext
    have hlt : i + 1 < w := by omega
    simpa [hlt] using hnext

theorem eq_zero_of_iterate_shift_eq_zero {poly a : BitVec w} (hpoly : poly.getLsbD 0 = true)
    {n : ℕ} (h : (shift poly)^[n] a = 0#w) : a = 0#w := by
  induction n generalizing a with
  | zero => exact h
  | succ n ih => exact eq_zero_of_shift_eq_zero hpoly (ih h)

theorem iterate_shift_injective {poly : BitVec w} (hpoly : poly.getLsbD 0 = true) (n : ℕ) :
    Function.Injective (shift poly)^[n] := by
  intro a b h
  apply BitVec.xor_eq_zero_iff.mp
  apply eq_zero_of_iterate_shift_eq_zero hpoly (n := n)
  rw [iterate_shift_xor, h, BitVec.xor_self]

theorem getLsbD_word (bits : List Bool) :
    ∀ i, i < w → (word w bits).getLsbD i = bits.getD (w - 1 - i) false := by
  induction bits with
  | nil =>
    intro i _
    exact BitVec.getLsbD_zero
  | cons b bits ih =>
    intro i hi
    rw [word, BitVec.getLsbD_xor, BitVec.getLsbD_ushiftRight]
    by_cases htop : i = w - 1
    · have hnone : (word w bits).getLsbD (1 + i) = false :=
        BitVec.getLsbD_of_ge _ _ (by omega)
      rw [hnone, htop, Nat.sub_self]
      cases b with
      | false => simp [topBit]
      | true => simpa [topBit, BitVec.getLsbD_twoPow] using (by omega : w - 1 < w)
    · have hfalse : (topBit w b).getLsbD i = false := by
        cases b with
        | false => simp [topBit]
        | true => simp [topBit, BitVec.getLsbD_twoPow, Ne.symm htop]
      rw [hfalse, ih (1 + i) (by omega), show w - 1 - i = (w - 1 - (1 + i)) + 1 by omega]
      simp

theorem shift_word_ushiftRight (poly : BitVec w) {bits : List Bool} (h : bits.length < w) :
    shift poly (word w bits >>> 1) = word w bits := by
  have hmsb : (word w bits >>> 1).msb = false := by
    rw [BitVec.msb_eq_getLsbD_last, BitVec.getLsbD_ushiftRight]
    exact BitVec.getLsbD_of_ge _ _ (by omega)
  rw [shift, hmsb, if_neg (by decide)]
  apply BitVec.eq_of_getLsbD_eq
  intro i hi
  rw [BitVec.getLsbD_shiftLeft, BitVec.getLsbD_ushiftRight]
  cases i with
  | zero =>
    rw [getLsbD_word bits 0 hi, List.getD_eq_default _ _ (by omega)]
    simp
  | succ i => simp [hi, Nat.add_comm]

theorem register_eq_iterate_shift (poly : BitVec w) (bits : List Bool) :
    ∀ c, bits.length ≤ w →
      register poly c bits = (shift poly)^[bits.length] (c ^^^ word w bits) := by
  -- Up to a register's width of bits can be added at once, before the shifts.
  induction bits with
  | nil =>
    intro c _
    simp [register, word]
  | cons b bits ih =>
    intro c hlength
    have hlt : bits.length < w := hlength
    show register poly (shift poly (c ^^^ topBit w b)) bits = _
    rw [ih _ hlt.le]
    nth_rewrite 1 [← shift_word_ushiftRight poly hlt]
    rw [← shift_xor, BitVec.xor_assoc]
    rfl

theorem word_ne_zero {bits : List Bool} (hlength : bits.length ≤ w) (h : true ∈ bits) :
    word w bits ≠ 0#w := by
  intro hzero
  obtain ⟨j, hj, hbit⟩ := List.mem_iff_getElem.mp h
  have hplace := getLsbD_word (w := w) bits (w - 1 - j) (by omega)
  rw [hzero, BitVec.getLsbD_zero, show w - 1 - (w - 1 - j) = j by omega,
    List.getD_eq_getElem _ _ hj, hbit] at hplace
  contradiction

theorem twoPow_eq_iterate_shift (poly : BitVec w) {k : ℕ} (hk : k < w) :
    BitVec.twoPow w k = (shift poly)^[k] (BitVec.twoPow w 0) := by
  induction k with
  | zero => rfl
  | succ k ih =>
    have hmsb : (BitVec.twoPow w k).msb = false := by
      rw [BitVec.msb_eq_getLsbD_last, BitVec.getLsbD_twoPow]
      simpa using fun _ => (by omega : k ≠ w - 1)
    rw [Function.iterate_succ_apply', ← ih (by omega), shift, hmsb, if_neg (by decide)]
    apply BitVec.eq_of_getLsbD_eq
    intro i hi
    rw [BitVec.getLsbD_twoPow, BitVec.getLsbD_shiftLeft, BitVec.getLsbD_twoPow]
    cases i with
    | zero => simp
    | succ i => simp [hi, show k < w by omega, show k + 1 < w from hk]

theorem exists_first_true {bits : List Bool} (h : true ∈ bits) :
    ∃ (before : ℕ) (rest : List Bool), bits = List.replicate before false ++ true :: rest ∧
      rest.count true + 1 = bits.count true := by
  induction bits with
  | nil => exact absurd h (by simp)
  | cons b bits ih =>
    cases b with
    | true => exact ⟨0, bits, rfl, by simp⟩
    | false =>
      obtain ⟨before, rest, hbits, hcount⟩ := ih (by simpa using h)
      refine ⟨before + 1, rest, ?_, ?_⟩
      · rw [hbits]
        rfl
      · simpa using hcount

theorem eq_replicate_false {bits : List Bool} (h : true ∉ bits) :
    bits = List.replicate bits.length false := by
  apply List.eq_replicate_of_mem
  intro b hb
  cases b with
  | false => rfl
  | true => exact absurd hb h

theorem register_burst_ne_zero {poly : BitVec w} (hpoly : poly.getLsbD 0 = true)
    {bits : List Bool} {start : ℕ}
    (hburst : ∀ i, bits[i]? = some true → start ≤ i ∧ i < start + w) (hmem : true ∈ bits) :
    register poly 0#w bits ≠ 0#w := by
  have hbefore : true ∉ bits.take start := by
    intro h
    obtain ⟨i, hi⟩ := List.mem_iff_getElem?.mp h
    rw [List.getElem?_take] at hi
    split_ifs at hi with hlt
    exact absurd (hburst i hi).1 (by omega)
  have hafter : true ∉ bits.drop (start + w) := by
    intro h
    obtain ⟨i, hi⟩ := List.mem_iff_getElem?.mp h
    rw [List.getElem?_drop] at hi
    exact absurd (hburst _ hi).2 (by omega)
  have hsplit : bits = bits.take start ++ ((bits.drop start).take w ++ bits.drop (start + w)) := by
    rw [← List.drop_drop, List.take_append_drop, List.take_append_drop]
  have hwindow : true ∈ (bits.drop start).take w := by
    rw [hsplit, List.mem_append, List.mem_append] at hmem
    tauto
  have hlength : ((bits.drop start).take w).length ≤ w := by
    rw [List.length_take]
    exact min_le_left _ _
  intro hzero
  rw [hsplit, register_append, register_append, eq_replicate_false hbefore,
    eq_replicate_false hafter, register_replicate_false, register_replicate_false,
    iterate_shift_zero, register_eq_iterate_shift _ _ _ hlength, BitVec.zero_xor] at hzero
  have hshifted := eq_zero_of_iterate_shift_eq_zero hpoly hzero
  exact word_ne_zero hlength hwindow (eq_zero_of_iterate_shift_eq_zero hpoly hshifted)

theorem register_two_ne_zero {poly : BitVec w} (hw : 0 < w) (hpoly : poly.getLsbD 0 = true)
    {bits : List Bool}
    (horder : ∀ k, 0 < k → k < bits.length →
      (shift poly)^[k] (BitVec.twoPow w 0) ≠ BitVec.twoPow w 0)
    (hcount : bits.count true = 2) : register poly 0#w bits ≠ 0#w := by
  obtain ⟨before, rest, hbits, hrest⟩ :=
    exists_first_true (List.count_pos_iff.mp (by omega : 0 < bits.count true))
  obtain ⟨between, last, hbetween, hlast⟩ :=
    exists_first_true (List.count_pos_iff.mp (by omega : 0 < rest.count true))
  have hafter := eq_replicate_false (List.count_eq_zero.mp (by omega : last.count true = 0))
  intro hzero
  -- the first bit has moved on by `between + 1` places when the second one is added
  have hstate : register poly 0#w bits =
      (shift poly)^[last.length]
        (shift poly ((shift poly)^[between] (shift poly (topBit w true)) ^^^ topBit w true)) := by
    rw [hbits, hbetween, hafter, register_append, register_replicate_false, iterate_shift_zero]
    show register poly (shift poly (0#w ^^^ topBit w true)) _ = _
    rw [BitVec.zero_xor, register_append, register_replicate_false]
    show register poly (shift poly (_ ^^^ topBit w true)) _ = _
    rw [register_replicate_false, List.length_replicate]
  rw [hstate] at hzero
  have hsame := BitVec.xor_eq_zero_iff.mp
    (eq_zero_of_shift_eq_zero hpoly (eq_zero_of_iterate_shift_eq_zero hpoly hzero))
  have htop : topBit w true = (shift poly)^[w - 1] (BitVec.twoPow w 0) :=
    twoPow_eq_iterate_shift poly (by omega)
  rw [← Function.iterate_succ_apply, htop, ← Function.iterate_add_apply, Nat.add_comm,
    Function.iterate_add_apply] at hsame
  refine horder (between + 1) (Nat.succ_pos _) ?_ (iterate_shift_injective hpoly _ hsame)
  rw [hbits, hbetween]
  simp only [List.length_append, List.length_replicate, List.length_cons]
  omega

/-- Whether `n` steps from `c` never reach `a`. -/
def avoids {α : Type} [DecidableEq α] (f : α → α) (a : α) : ℕ → α → Bool
  | 0, _ => true
  | n + 1, c => f c ≠ a && avoids f a n (f c)

theorem iterate_ne_of_avoids {α : Type} [DecidableEq α] {f : α → α} {a : α} {n : ℕ} {c : α}
    (h : avoids f a n c = true) {k : ℕ} (hpos : 0 < k) (hk : k ≤ n) : f^[k] c ≠ a := by
  induction n generalizing c k with
  | zero => exact absurd hk (by omega)
  | succ n ih =>
    rw [avoids, Bool.and_eq_true] at h
    obtain ⟨k, rfl⟩ := Nat.exists_eq_succ_of_ne_zero hpos.ne'
    rw [Function.iterate_succ_apply]
    cases k with
    | zero => exact of_decide_eq_true h.1
    | succ k => exact ih h.2 (Nat.succ_pos k) (Nat.le_of_succ_le_succ hk)

/-- The number of set bits, as an element of the two-element field. -/
def parity (c : BitVec w) : ZMod 2 := ∑ i ∈ Finset.range w, if c.getLsbD i then 1 else 0

theorem parity_xor (a b : BitVec w) : parity (a ^^^ b) = parity a + parity b := by
  rw [parity, parity, parity, ← Finset.sum_add_distrib]
  apply Finset.sum_congr rfl
  intro i _
  rw [BitVec.getLsbD_xor]
  cases a.getLsbD i <;> cases b.getLsbD i <;> decide

theorem parity_shiftLeft (c : BitVec w) :
    parity (c <<< 1) + (if c.msb then 1 else 0) = parity c := by
  cases w with
  | zero => simp [parity, BitVec.msb_eq_getLsbD_last, BitVec.of_length_zero]
  | succ n =>
    rw [parity, parity, Finset.sum_range_succ', Finset.sum_range_succ, BitVec.msb_eq_getLsbD_last]
    have hsum : ∀ i ∈ Finset.range n, (if (c <<< 1).getLsbD (i + 1) then (1 : ZMod 2) else 0) =
        if c.getLsbD i then 1 else 0 := by
      intro i hi
      have hlt := Finset.mem_range.mp hi
      simp [hlt, BitVec.getLsbD_eq_getElem (by omega : i < n + 1)]
    rw [Finset.sum_congr rfl hsum]
    simp

theorem parity_shift {poly : BitVec w} (hpoly : parity poly = 1) (c : BitVec w) :
    parity (shift poly c) = parity c := by
  rw [← parity_shiftLeft c, shift]
  cases c.msb with
  | false => simp
  | true =>
    rw [if_pos rfl, parity_xor, hpoly]
    rfl

theorem parity_topBit (hw : 0 < w) (b : Bool) : parity (topBit w b) = if b then 1 else 0 := by
  cases b with
  | false => simp [parity, topBit]
  | true =>
    have hterm : ∀ i ∈ Finset.range w, (if (topBit w true).getLsbD i then (1 : ZMod 2) else 0) =
        if i = w - 1 then 1 else 0 := by
      intro i hi
      have hlt := Finset.mem_range.mp hi
      simp [topBit, BitVec.getLsbD_twoPow, hw, eq_comm]
    rw [parity, Finset.sum_congr rfl hterm, Finset.sum_ite_eq' (Finset.range w) (w - 1)]
    simp [hw.ne']

theorem parity_register (hw : 0 < w) {poly : BitVec w} (hpoly : parity poly = 1)
    (bits : List Bool) (c : BitVec w) :
    parity (register poly c bits) = parity c + (bits.count true : ZMod 2) := by
  -- With a generator divisible by `x + 1` the register keeps count of the set bits.
  induction bits generalizing c with
  | nil => simp [register]
  | cons b bits ih =>
    show parity (register poly (shift poly (c ^^^ topBit w b)) bits) = _
    rw [ih, parity_shift hpoly, parity_xor, parity_topBit hw]
    cases b with
    | false => simp
    | true =>
      simp only [List.count_cons_self, Nat.cast_add, Nat.cast_one, if_true]
      ring

theorem register_odd_ne_zero (hw : 0 < w) {poly : BitVec w} (hpoly : parity poly = 1)
    {bits : List Bool} (hodd : Odd (bits.count true)) : register poly 0#w bits ≠ 0#w := by
  intro hzero
  have hparity := parity_register hw hpoly bits 0#w
  have hnone : parity 0#w = 0 := by simp [parity]
  rw [hzero, hnone, zero_add, eq_comm, ZMod.natCast_eq_zero_iff_even] at hparity
  exact Nat.not_even_iff_odd.mpr hodd hparity

end StarrySky.Base.Crc
