import Mathlib

/-! The scanline filters of PNG for samples of eight bits: a filtered byte is the difference
between a byte and a prediction from its neighbours to the left, above and above to the left. -/

namespace StarrySky.Base

inductive PngFilter where
  | none
  | sub
  | up
  | average
  | paeth
deriving DecidableEq

namespace PngFilter

/-- The byte in front of a scanline. -/
def type : PngFilter → UInt8
  | none => 0
  | sub => 1
  | up => 2
  | average => 3
  | paeth => 4

/-- The neighbour nearest to `left + up - upLeft`, the first of them in this order. -/
def paethNeighbour (left up upLeft : UInt8) : UInt8 :=
  ([left, up, upLeft].argmin (fun byte : UInt8 =>
    ((left.toNat : ℤ) + up.toNat - upLeft.toNat - byte.toNat).natAbs)).getD left

def predict (left up upLeft : UInt8) : PngFilter → UInt8
  | .none => 0
  | .sub => left
  | .up => up
  | .average => UInt8.ofNat ((left.toNat + up.toNat) / 2)
  | .paeth => paethNeighbour left up upLeft

end PngFilter

/-- The byte `bpp` bytes before position `i`, zero in front of the row. -/
def byteBefore (bpp : ℕ) (row : List UInt8) (i : ℕ) : UInt8 :=
  if i < bpp then 0 else row.getD (i - bpp) 0

def pngPrediction (filter : PngFilter) (bpp : ℕ) (prior row : List UInt8) (i : ℕ) : UInt8 :=
  filter.predict (byteBefore bpp row i) (prior.getD i 0) (byteBefore bpp prior i)

def filterRow (filter : PngFilter) (bpp : ℕ) (prior row : List UInt8) : List UInt8 :=
  (List.range row.length).map (fun i => row.getD i 0 - pngPrediction filter bpp prior row i)

/-- The rows one after the other, each behind its filter type and over the one before it. -/
def filterRows (bpp : ℕ) (prior : List UInt8) : List (PngFilter × List UInt8) → List UInt8
  | [] => []
  | (filter, row) :: rows =>
    filter.type :: filterRow filter bpp prior row ++ filterRows bpp row rows

/-- The data of an image: above its first row are zeros. -/
def pngFilteredData (bpp rowLen : ℕ) (rows : List (PngFilter × List UInt8)) : List UInt8 :=
  filterRows bpp (List.replicate rowLen 0) rows

theorem argmin_three {α : Type*} (f : α → ℕ) (a b c : α) :
    [a, b, c].argmin f =
      some (if f a ≤ f b ∧ f a ≤ f c then a else if f b ≤ f c then b else c) := by
  rw [List.argmin_cons, List.argmin_cons, List.argmin_singleton]
  by_cases hbc : f c < f b
  · simp only [hbc, if_true, Nat.not_le.mpr hbc, if_false]
    split_ifs <;> first | rfl | (exfalso; omega)
  · simp only [hbc, if_false, Nat.le_of_not_lt hbc, if_true]
    split_ifs <;> first | rfl | (exfalso; omega)

@[simp] theorem length_filterRow (filter : PngFilter) (bpp : ℕ) (prior row : List UInt8) :
    (filterRow filter bpp prior row).length = row.length := by
  rw [filterRow, List.length_map, List.length_range]

theorem getElem_filterRow_add {filter : PngFilter} {bpp : ℕ} {prior row : List UInt8} {i : ℕ}
    (hi : i < row.length) :
    (filterRow filter bpp prior row).getD i 0 + pngPrediction filter bpp prior row i = row[i] := by
  have hget : (filterRow filter bpp prior row).getD i 0 =
      row[i] - pngPrediction filter bpp prior row i := by
    rw [List.getD_eq_getElem _ _ (by rwa [length_filterRow])]
    simp only [filterRow, List.getElem_map, List.getElem_range, List.getD_eq_getElem _ _ hi]
  rw [hget, UInt8.sub_add_cancel]

theorem length_filterRows {bpp rowLen : ℕ} {prior : List UInt8}
    {rows : List (PngFilter × List UInt8)} (hrows : ∀ row ∈ rows, row.2.length = rowLen) :
    (filterRows bpp prior rows).length = rows.length * (1 + rowLen) := by
  induction rows generalizing prior with
  | nil => rw [filterRows, List.length_nil, List.length_nil, Nat.zero_mul]
  | cons row rows ih =>
    have hrow : row.2.length = rowLen := hrows row List.mem_cons_self
    rw [filterRows, List.length_append, List.length_cons, length_filterRow, hrow,
      ih (fun r hr => hrows r (List.mem_cons_of_mem _ hr)), List.length_cons, Nat.add_one_mul]
    omega

theorem byteBefore_append {bpp i : ℕ} (hbpp : 0 < bpp) {row known rest : List UInt8}
    (hknown : known = row.take i) (hi : i ≤ row.length) :
    byteBefore bpp (known ++ rest) i = byteBefore bpp row i := by
  -- A prediction looks at no byte of the row from its own position on.
  rw [byteBefore, byteBefore]
  split_ifs with hlt
  · rfl
  · have hlen : i - bpp < known.length := by
      rw [hknown, List.length_take]
      omega
    rw [List.getD_append _ _ _ _ hlen, hknown]
    simp only [List.getD_eq_getElem?_getD]
    rw [List.getElem?_take_of_lt (by omega)]

theorem pngPrediction_append {filter : PngFilter} {bpp i : ℕ} (hbpp : 0 < bpp)
    {prior row : List UInt8} (rest : List UInt8) (hi : i ≤ row.length) :
    pngPrediction filter bpp prior (row ++ rest) i = pngPrediction filter bpp prior row i := by
  have hbefore : byteBefore bpp (row ++ rest) i = byteBefore bpp row i := by
    rw [byteBefore, byteBefore]
    split_ifs with hlt
    · rfl
    · rw [List.getD_append _ _ _ _ (by omega)]
  rw [pngPrediction, pngPrediction, hbefore]

theorem filterRow_concat {filter : PngFilter} {bpp : ℕ} (hbpp : 0 < bpp) {prior : List UInt8}
    (row : List UInt8) (byte : UInt8) :
    filterRow filter bpp prior (row ++ [byte]) =
      filterRow filter bpp prior row ++ [byte - pngPrediction filter bpp prior row row.length] := by
  rw [filterRow, List.length_append, List.length_singleton, List.range_succ, List.map_append,
    List.map_singleton, pngPrediction_append hbpp _ le_rfl,
    List.getD_append_right _ _ _ _ le_rfl, Nat.sub_self]
  congr 1
  refine List.map_congr_left fun i hi => ?_
  have hlt : i < row.length := List.mem_range.mp hi
  rw [pngPrediction_append hbpp _ (Nat.le_of_lt hlt), List.getD_append _ _ _ _ hlt]

theorem exists_filterRow (filter : PngFilter) {bpp : ℕ} (hbpp : 0 < bpp) (prior : List UInt8)
    (filtered : List UInt8) :
    ∃ row, row.length = filtered.length ∧ filterRow filter bpp prior row = filtered := by
  induction filtered using List.reverseRecOn with
  | nil => exact ⟨[], rfl, rfl⟩
  | append_singleton filtered byte ih =>
    obtain ⟨row, hlen, hrow⟩ := ih
    refine ⟨row ++ [byte + pngPrediction filter bpp prior row row.length], ?_, ?_⟩
    · rw [List.length_append, List.length_append, hlen]
      rfl
    · rw [filterRow_concat hbpp, hrow, UInt8.add_sub_cancel]

theorem set_take_append_drop {n : ℕ} {row filtered : List UInt8} (hn : n < row.length)
    (hlen : filtered.length = row.length) {byte : UInt8} (hbyte : byte = row[n]) :
    (row.take n ++ filtered.drop n).set n byte = row.take (n + 1) ++ filtered.drop (n + 1) := by
  have htake : (row.take n).length = n := List.length_take_of_le (Nat.le_of_lt hn)
  have hdrop : filtered.drop n = filtered[n] :: filtered.drop (n + 1) :=
    List.drop_eq_getElem_cons (hlen.symm ▸ hn)
  rw [List.set_append_right _ _ htake.le, htake, Nat.sub_self, hdrop, List.set_cons_zero, hbyte,
    ← List.take_concat_get' row n hn, List.append_assoc, List.singleton_append]

end StarrySky.Base
