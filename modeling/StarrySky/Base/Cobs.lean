import Mathlib

/-! Consistent-overhead byte stuffing. A byte string is cut into blocks of at
most 254 nonzero bytes, each preceded by its length plus one; the zero that ends
a shorter block is left out of the encoding. -/

namespace StarrySky.Base.Cobs

/-- The code byte in front of a block. -/
def code (block : List UInt8) : UInt8 := UInt8.ofNat (block.length + 1)

/-- Encode `xs` behind an open block that already holds `block`. -/
def encodeFrom (block : List UInt8) : List UInt8 → List UInt8
  | [] => code block :: block
  | x :: xs =>
    if x = 0 then code block :: block ++ encodeFrom [] xs
    else if block.length = 253 then
      code (block ++ [x]) :: (block ++ [x]) ++ (if xs = [] then [] else encodeFrom [] xs)
    else encodeFrom (block ++ [x]) xs

def encode (xs : List UInt8) : List UInt8 := encodeFrom [] xs

/-- An open block: nonzero bytes, and room for one more. -/
structure OpenBlock (block : List UInt8) : Prop where
  nonzero : ∀ b ∈ block, b ≠ 0
  length_lt : block.length < 254

theorem openBlock_nil : OpenBlock [] := ⟨by simp, by simp⟩

theorem OpenBlock.snoc {block : List UInt8} (h : OpenBlock block) {x : UInt8} (hx : x ≠ 0)
    (hlen : block.length ≠ 253) : OpenBlock (block ++ [x]) := by
  refine ⟨?_, ?_⟩
  · intro b hb
    rcases List.mem_append.mp hb with hb | hb
    · exact h.nonzero b hb
    · rw [List.mem_singleton.mp hb]
      exact hx
  · have := h.length_lt
    simp only [List.length_append, List.length_singleton]
    omega

theorem toNat_code (block : List UInt8) (h : block.length < 255) :
    (code block).toNat = block.length + 1 := by
  rw [code, UInt8.toNat_ofNat']
  omega

theorem code_ne_zero (block : List UInt8) (h : block.length < 255) : code block ≠ 0 := by
  intro hzero
  have := toNat_code block h
  rw [hzero] at this
  simp at this

theorem length_encodeFrom_gt (block xs : List UInt8) :
    block.length + xs.length < (encodeFrom block xs).length := by
  induction xs generalizing block with
  | nil => exact Nat.lt_succ_self _
  | cons x xs ih =>
    have hempty := ih []
    rw [List.length_nil, Nat.zero_add] at hempty
    rw [encodeFrom, List.length_cons]
    split_ifs with hzero hfull hlast
    · rw [List.length_append, List.length_cons]
      omega
    · rw [hlast, List.append_nil, List.length_cons, List.length_append, List.length_singleton,
        List.length_nil]
      omega
    · rw [List.length_append, List.length_cons, List.length_append, List.length_singleton]
      omega
    · have hnext := ih (block ++ [x])
      rw [List.length_append, List.length_singleton] at hnext
      omega

theorem encodeFrom_ne_nil (block xs : List UInt8) : encodeFrom block xs ≠ [] := by
  have := length_encodeFrom_gt block xs
  intro hnil
  rw [hnil] at this
  simp at this

theorem zero_notMem_encodeFrom {block : List UInt8} (h : OpenBlock block) (xs : List UInt8) :
    (0 : UInt8) ∉ encodeFrom block xs := by
  induction xs generalizing block with
  | nil =>
    have hcode := code_ne_zero block (by have := h.length_lt; omega)
    simp only [encodeFrom, List.mem_cons, not_or]
    exact ⟨fun hz => hcode hz.symm, fun hz => h.nonzero 0 hz rfl⟩
  | cons x xs ih =>
    have hcode := code_ne_zero block (by have := h.length_lt; omega)
    rw [encodeFrom]
    split_ifs with hx hfull hxs
    · simp only [List.cons_append, List.mem_cons, List.mem_append, not_or]
      exact ⟨fun hz => hcode hz.symm, fun hz => h.nonzero 0 hz rfl, ih openBlock_nil⟩
    · have hfullCode := code_ne_zero (block ++ [x]) (by simp [hfull])
      simp only [List.append_nil, List.mem_cons, List.mem_append, List.not_mem_nil, or_false,
        not_or]
      exact ⟨fun hz => hfullCode hz.symm, fun hz => h.nonzero 0 hz rfl, fun hz => hx hz.symm⟩
    · have hfullCode := code_ne_zero (block ++ [x]) (by simp [hfull])
      simp only [List.cons_append, List.mem_cons, List.mem_append, List.not_mem_nil, or_false,
        not_or]
      exact ⟨fun hz => hfullCode hz.symm, ⟨fun hz => h.nonzero 0 hz rfl, fun hz => hx hz.symm⟩,
        ih openBlock_nil⟩
    · exact ih (h.snoc hx hfull)

theorem length_encodeFrom_le (block xs : List UInt8) (h : block.length < 254) :
    (encodeFrom block xs).length ≤
      block.length + xs.length + 1 + (block.length + xs.length) / 254 := by
  induction xs generalizing block with
  | nil => simp only [encodeFrom, List.length_cons, List.length_nil]; omega
  | cons x xs ih =>
    rw [encodeFrom]
    split_ifs with hx hfull hxs
    · have := ih [] (by simp)
      simp only [List.length_append, List.length_cons, List.length_nil] at this ⊢
      omega
    · subst hxs
      simp only [List.length_append, List.length_cons, List.length_nil]
      omega
    · have := ih [] (by simp)
      simp only [List.length_append, List.length_cons, List.length_nil] at this ⊢
      omega
    · have := ih (block ++ [x]) (by simp only [List.length_append, List.length_singleton]; omega)
      simp only [List.length_append, List.length_cons, List.length_nil] at this ⊢
      omega

/-- What a decoder appends after the block it has just copied: the zero the
encoding left out, unless the block was full or the input is spent. -/
def gap (c : UInt8) (rest : List UInt8) : List UInt8 := if c ≠ 0xff ∧ rest ≠ [] then [0] else []

/-- `Decodes enc xs`: the encoding `enc` stands for `xs`. -/
inductive Decodes : List UInt8 → List UInt8 → Prop
  | nil : Decodes [] []
  | block {c : UInt8} {data rest xs : List UInt8} (hc : c.toNat = data.length + 1)
      (h : Decodes rest xs) : Decodes (c :: data ++ rest) (data ++ gap c rest ++ xs)

theorem decodes_encodeFrom {block : List UInt8} (h : OpenBlock block) (xs : List UInt8) :
    Decodes (encodeFrom block xs) (block ++ xs) := by
  have hshort : ∀ {b : List UInt8}, b.length < 254 → code b ≠ 0xff := by
    intro b hb hcode
    have := toNat_code b (by omega)
    rw [hcode] at this
    simp at this
    omega
  induction xs generalizing block with
  | nil =>
    have hblock := Decodes.block (toNat_code block (by have := h.length_lt; omega))
      Decodes.nil
    simpa [encodeFrom, gap] using hblock
  | cons x xs ih =>
    rw [encodeFrom]
    split_ifs with hx hfull hxs
    · have hblock := Decodes.block (toNat_code block (by have := h.length_lt; omega))
        (ih openBlock_nil)
      subst hx
      simpa [gap, hshort h.length_lt, encodeFrom_ne_nil] using hblock
    · have hblock := Decodes.block (toNat_code (block ++ [x]) (by simp [hfull]))
        Decodes.nil
      subst hxs
      simpa [gap] using hblock
    · have hff : code (block ++ [x]) = 0xff := by simp [code, hfull]
      have hblock := Decodes.block (toNat_code (block ++ [x]) (by simp [hfull]))
        (ih openBlock_nil)
      simpa [gap, hff, encodeFrom_ne_nil] using hblock
    · simpa using ih (h.snoc hx hfull)

theorem decodes_encode (xs : List UInt8) : Decodes (encode xs) xs :=
  decodes_encodeFrom openBlock_nil xs

theorem length_encode_le (xs : List UInt8) :
    (encode xs).length ≤ xs.length + 1 + xs.length / 254 := by
  simpa [encode] using length_encodeFrom_le [] xs (by simp)

theorem zero_notMem_encode (xs : List UInt8) : (0 : UInt8) ∉ encode xs :=
  zero_notMem_encodeFrom openBlock_nil xs

end StarrySky.Base.Cobs
