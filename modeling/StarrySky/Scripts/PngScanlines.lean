import StarrySky.Base.PngFilter

/-! The scanlines of `read_png_rgba` in `scripts/generate_compressed_chunks.py`. -/

namespace StarrySky.Scripts
open StarrySky.Base

/-- What ends the script: `fail` with a message, an index out of range, or a number that does
not fit its bytes. -/
inductive ScriptError where
  | systemExit (message : String)
  | indexError
  | overflowError
deriving DecidableEq

def index {α : Type} (items : List α) (i : ℕ) : Except ScriptError α :=
  match items[i]? with
  | some item => .ok item
  | none => .error .indexError

def paethPredictor (a b c : ℕ) : ℕ :=
  let p : ℤ := a + b - c
  let pa := (p - a).natAbs
  let pb := (p - b).natAbs
  let pc := (p - c).natAbs
  if pa ≤ pb ∧ pa ≤ pc then a else if pb ≤ pc then b else c

/-- `row[i - bpp] if i >= bpp else 0`. -/
def leftByte (row : List UInt8) (bpp i : ℕ) : Except ScriptError ℕ :=
  if i ≥ bpp then do return (← index row (i - bpp)).toNat else .ok 0

/-- The body of a filter's loop: `out` holds the bytes already reconstructed before `i`. -/
def reconstructByte (predicted : List UInt8 → ℕ → Except ScriptError ℕ) (out : List UInt8)
    (i : ℕ) : Except ScriptError (List UInt8) := do
  let byte ← index out i
  let value ← predicted out i
  return out.set i (UInt8.ofNat ((byte.toNat + value) &&& 0xff))

def reconstruct (row : List UInt8) (predicted : List UInt8 → ℕ → Except ScriptError ℕ) :
    Except ScriptError (List UInt8) :=
  (List.range row.length).foldlM (reconstructByte predicted) row

def unfilterScanline (filterType : UInt8) (row prev : List UInt8) (bpp : ℕ) :
    Except ScriptError (List UInt8) :=
  if filterType = 0 then .ok row
  else if filterType = 1 then reconstruct row (fun out i => leftByte out bpp i)
  else if filterType = 2 then reconstruct row (fun _ i => do return (← index prev i).toNat)
  else if filterType = 3 then
    reconstruct row (fun out i => do
      let left ← leftByte out bpp i
      let up ← index prev i
      return (left + up.toNat) / 2)
  else if filterType = 4 then
    reconstruct row (fun out i => do
      let left ← leftByte out bpp i
      let up ← index prev i
      let upperLeft ← leftByte prev bpp i
      return paethPredictor left up.toNat upperLeft)
  else .error (.systemExit ("unsupported PNG filter type " ++ toString filterType))

abbrev Pixel : Type := UInt8 × UInt8 × UInt8 × UInt8

def pixelAt (row : List UInt8) (channels x : ℕ) : Except ScriptError Pixel := do
  let off := x * channels
  let r ← index row off
  let g ← index row (off + 1)
  let b ← index row (off + 2)
  let a ← if channels = 4 then index row (off + 3) else .ok 255
  return (r, g, b, a)

/-- The loop over the scanlines, with what it has of the image so far. -/
def readScanlines (raw : List UInt8) (width channels : ℕ) :
    ℕ → ℕ → List UInt8 → List Pixel → Except ScriptError (List Pixel)
  | 0, _, _, pixels => .ok pixels
  | height + 1, rawPos, prev, pixels => do
    let rowLen := width * channels
    let filterType ← index raw rawPos
    let row ← unfilterScanline filterType ((raw.drop (rawPos + 1)).take rowLen) prev channels
    let rowPixels ← (List.range width).mapM (pixelAt row channels)
    readScanlines raw width channels height (rawPos + 1 + rowLen) row (pixels ++ rowPixels)

/-- `read_png_rgba` from the length check of the decompressed data on. -/
def readPngRgba (path : String) (width height : ℕ) (colorType : UInt8) (raw : List UInt8) :
    Except ScriptError (List Pixel) :=
  let channels := if colorType = 2 then 3 else 4
  let rowLen := width * channels
  let expectedLen := height * (1 + rowLen)
  if raw.length ≠ expectedLen then
    .error (.systemExit (path ++ ": decoded PNG data length " ++ toString raw.length ++
      " does not match expected " ++ toString expectedLen))
  else readScanlines raw width channels height 0 (List.replicate rowLen 0) []

theorem index_of_lt {α : Type} {items : List α} {i : ℕ} (hi : i < items.length) :
    index items i = .ok items[i] := by
  rw [index, List.getElem?_eq_getElem hi]

theorem index_append_right {α : Type} (front items : List α) (i : ℕ) :
    index (front ++ items) (front.length + i) = index items i := by
  rw [index, index, List.getElem?_append_right (Nat.le_add_right _ _), Nat.add_sub_cancel_left]

/-! Filtering and reconstructing predict a byte alike, and the predictions look only at bytes
which the loop has reconstructed. -/

theorem paethPredictor_eq (left up upLeft : UInt8) :
    paethPredictor left.toNat up.toNat upLeft.toNat =
      (PngFilter.paethNeighbour left up upLeft).toNat := by
  rw [paethPredictor, PngFilter.paethNeighbour, argmin_three, Option.getD_some]
  split_ifs <;> rfl

theorem ofNat_add_and (byte value : UInt8) :
    UInt8.ofNat ((byte.toNat + value.toNat) &&& 0xff) = byte + value := by
  apply UInt8.toNat_inj.mp
  rw [UInt8.toNat_add, UInt8.toNat_ofNat', Nat.and_two_pow_sub_one_eq_mod _ 8, Nat.mod_mod]

theorem leftByte_eq {row : List UInt8} {bpp i : ℕ} (hi : i < row.length + bpp) :
    leftByte row bpp i = .ok (byteBefore bpp row i).toNat := by
  rw [leftByte, byteBefore]
  by_cases hbefore : i ≥ bpp
  · have hlt : i - bpp < row.length := by omega
    rw [if_pos hbefore, if_neg (Nat.not_lt.mpr hbefore), index_of_lt hlt,
      List.getD_eq_getElem _ _ hlt]
    rfl
  · rw [if_neg hbefore, if_pos (Nat.lt_of_not_le hbefore)]
    rfl

section
variable {filter : PngFilter} {bpp : ℕ} {prior row : List UInt8}

/-- What the loop predicts from the bytes of `row` before a position, whatever follows them,
is what the filter predicted there. -/
def Predicts (filter : PngFilter) (bpp : ℕ) (prior row : List UInt8)
    (predicted : List UInt8 → ℕ → Except ScriptError ℕ) : Prop :=
  ∀ i < row.length, ∀ rest : List UInt8, rest.length = row.length - i →
    predicted (row.take i ++ rest) i = .ok (pngPrediction filter bpp prior row i).toNat

theorem reconstructByte_filterRow {predicted : List UInt8 → ℕ → Except ScriptError ℕ}
    (h : Predicts filter bpp prior row predicted) {n : ℕ} (hn : n < row.length) :
    reconstructByte predicted (row.take n ++ (filterRow filter bpp prior row).drop n) n =
      .ok (row.take (n + 1) ++ (filterRow filter bpp prior row).drop (n + 1)) := by
  have hlen : (filterRow filter bpp prior row).length = row.length := length_filterRow ..
  have htake : (row.take n).length = n := List.length_take_of_le (Nat.le_of_lt hn)
  have hbyte : index (row.take n ++ (filterRow filter bpp prior row).drop n) n =
      .ok ((filterRow filter bpp prior row).getD n 0) := by
    have hoffset := index_append_right (row.take n) ((filterRow filter bpp prior row).drop n) 0
    rw [htake, Nat.add_zero] at hoffset
    rw [hoffset, index_of_lt (by rw [List.length_drop]; omega), List.getElem_drop,
      List.getD_eq_getElem _ _ (by omega)]
    rfl
  have hvalue := h n hn ((filterRow filter bpp prior row).drop n) (by rw [List.length_drop, hlen])
  rw [reconstructByte, hbyte, hvalue]
  show Except.ok _ = Except.ok _
  rw [ofNat_add_and, set_take_append_drop hn hlen (getElem_filterRow_add hn)]

theorem reconstruct_filterRow {predicted : List UInt8 → ℕ → Except ScriptError ℕ}
    (h : Predicts filter bpp prior row predicted) :
    reconstruct (filterRow filter bpp prior row) predicted = .ok row := by
  -- The loop gives the row back, one byte at each position.
  have hloop : ∀ n ≤ row.length,
      (List.range n).foldlM (reconstructByte predicted) (filterRow filter bpp prior row) =
        .ok (row.take n ++ (filterRow filter bpp prior row).drop n) := by
    intro n
    induction n with
    | zero => intro _; rfl
    | succ n ih =>
      intro hn
      rw [List.range_succ, List.foldlM_append, ih (Nat.le_of_succ_le hn)]
      show (List.foldlM (reconstructByte predicted) _ [n] : Except ScriptError _) = _
      rw [List.foldlM_cons, reconstructByte_filterRow h hn]
      rfl
  rw [reconstruct, length_filterRow, hloop _ le_rfl, List.take_length, List.drop_of_length_le,
    List.append_nil]
  rw [length_filterRow]

end

theorem unfilterScanline_filterRow (filter : PngFilter) {bpp : ℕ} (hbpp : 0 < bpp)
    {prior row : List UInt8} (hprior : prior.length = row.length) :
    unfilterScanline filter.type (filterRow filter bpp prior row) prior bpp = .ok row := by
  have hleft : ∀ i < row.length, ∀ rest : List UInt8, rest.length = row.length - i →
      leftByte (row.take i ++ rest) bpp i = .ok (byteBefore bpp row i).toNat := by
    intro i hi rest hrest
    rw [leftByte_eq, byteBefore_append hbpp rfl (Nat.le_of_lt hi)]
    rw [List.length_append, List.length_take]
    omega
  have hup : ∀ i < row.length, index prior i = .ok (prior.getD i 0) := by
    intro i hi
    rw [index_of_lt (hi.trans_eq hprior.symm), List.getD_eq_getElem _ _ (hi.trans_eq hprior.symm)]
  cases filter with
  | none =>
    show Except.ok (filterRow .none bpp prior row) = .ok row
    apply congrArg Except.ok
    apply List.ext_getElem
    · exact length_filterRow ..
    · intro i hleft hright
      simp only [filterRow, List.getElem_map, List.getElem_range, pngPrediction,
        PngFilter.predict, UInt8.sub_zero, List.getD_eq_getElem _ _ hright]
  | sub =>
    show reconstruct (filterRow .sub bpp prior row) _ = .ok row
    exact reconstruct_filterRow hleft
  | up =>
    show reconstruct (filterRow .up bpp prior row) _ = .ok row
    apply reconstruct_filterRow
    intro i hi rest hrest
    beta_reduce
    rw [hup i hi]
    rfl
  | average =>
    show reconstruct (filterRow .average bpp prior row) _ = .ok row
    apply reconstruct_filterRow
    intro i hi rest hrest
    beta_reduce
    rw [hleft i hi rest hrest, hup i hi]
    -- the mean of two bytes is a byte
    have hmean : ((byteBefore bpp row i).toNat + (prior.getD i 0).toNat) / 2 < 2 ^ 8 := by
      have := (byteBefore bpp row i).toNat_lt
      have := (prior.getD i 0).toNat_lt
      omega
    exact congrArg Except.ok (UInt8.toNat_ofNat_of_lt' hmean).symm
  | paeth =>
    show reconstruct (filterRow .paeth bpp prior row) _ = .ok row
    apply reconstruct_filterRow
    intro i hi rest hrest
    beta_reduce
    rw [hleft i hi rest hrest, hup i hi, leftByte_eq (by omega)]
    exact congrArg Except.ok (paethPredictor_eq ..)

/-! An image as it was before filtering: pixels of three or four samples in rows. -/

/-- The color types of eight-bit images that `read_png_rgba` reads. -/
inductive PngColor where
  | rgb
  | rgba
deriving DecidableEq

namespace PngColor

def colorType : PngColor → UInt8
  | rgb => 2
  | rgba => 6

@[reducible] def channels : PngColor → ℕ
  | rgb => 3
  | rgba => 4

/-- The pixel with its alpha sample, 255 where it has none. -/
def withAlpha : (color : PngColor) → Vector UInt8 color.channels → Pixel
  | rgb, pixel => (pixel[0], pixel[1], pixel[2], 255)
  | rgba, pixel => (pixel[0], pixel[1], pixel[2], pixel[3])

theorem channels_pos (color : PngColor) : 0 < color.channels := by
  cases color <;> decide

end PngColor

def rowBytes {color : PngColor} {width : ℕ} (row : Vector (Vector UInt8 color.channels) width) :
    List UInt8 :=
  row.toList.flatMap Vector.toList

theorem length_rowBytes {color : PngColor} {width : ℕ}
    (row : Vector (Vector UInt8 color.channels) width) :
    (rowBytes row).length = width * color.channels := by
  rw [rowBytes, List.length_flatMap]
  have hmap : row.toList.map (fun pixel => pixel.toList.length) =
      List.replicate width color.channels := by
    rw [List.eq_replicate_iff]
    refine ⟨by simp, fun n hn => ?_⟩
    obtain ⟨pixel, _, rfl⟩ := List.mem_map.mp hn
    exact pixel.length_toList
  rw [hmap, List.sum_replicate, smul_eq_mul]

theorem pixelAt_zero (color : PngColor) (pixel : Vector UInt8 color.channels)
    (rest : List UInt8) :
    pixelAt (pixel.toList ++ rest) color.channels 0 = .ok (color.withAlpha pixel) := by
  obtain ⟨⟨bytes⟩, hsize⟩ := pixel
  cases color with
  | rgb =>
    match bytes, hsize with
    | [r, g, b], _ => rfl
  | rgba =>
    match bytes, hsize with
    | [r, g, b, a], _ => rfl

theorem pixelAt_succ (color : PngColor) (pixel : Vector UInt8 color.channels)
    (rest : List UInt8) (x : ℕ) :
    pixelAt (pixel.toList ++ rest) color.channels (x + 1) = pixelAt rest color.channels x := by
  have hindex : ∀ k, index (pixel.toList ++ rest) ((x + 1) * color.channels + k) =
      index rest (x * color.channels + k) := by
    intro k
    rw [← index_append_right pixel.toList rest, pixel.length_toList, Nat.add_one_mul]
    congr 1
    omega
  have hindexZero := hindex 0
  rw [Nat.add_zero, Nat.add_zero] at hindexZero
  simp only [pixelAt, hindex, hindexZero, Nat.add_zero]

theorem mapM_pixelAt (color : PngColor) (pixels : List (Vector UInt8 color.channels)) :
    (List.range pixels.length).mapM (pixelAt (pixels.flatMap Vector.toList) color.channels) =
      .ok (pixels.map color.withAlpha) := by
  induction pixels with
  | nil => rfl
  | cons pixel pixels ih =>
    rw [List.length_cons, List.range_succ_eq_map, List.mapM_cons, List.mapM_map,
      List.flatMap_cons, pixelAt_zero]
    have hrest : pixelAt (pixel.toList ++ pixels.flatMap Vector.toList) color.channels ∘ Nat.succ =
        pixelAt (pixels.flatMap Vector.toList) color.channels := by
      funext x
      exact pixelAt_succ color pixel _ x
    rw [hrest, ih]
    rfl

/-- Above the first row are zeros; a row is reconstructed from its filtered bytes and the row
above it, wherever it lies in the data. -/
theorem readScanlines_filterRows {color : PngColor} {width : ℕ}
    (rows : List (PngFilter × Vector (Vector UInt8 color.channels) width))
    {front prior : List UInt8}
    (hprior : prior.length = width * color.channels) (pixels : List Pixel) :
    readScanlines
        (front ++ filterRows color.channels prior (rows.map (Prod.map id rowBytes)))
        width color.channels rows.length front.length prior pixels =
      .ok (pixels ++ rows.flatMap (fun row => row.2.toList.map color.withAlpha)) := by
  induction rows generalizing front prior pixels with
  | nil => rw [List.length_nil, readScanlines, List.flatMap_nil, List.append_nil]
  | cons row rows ih =>
    obtain ⟨filter, row⟩ := row
    have hlen : (rowBytes row).length = width * color.channels := length_rowBytes row
    have hfiltered : (filterRow filter color.channels prior (rowBytes row)).length =
        width * color.channels := by rw [length_filterRow, hlen]
    have hraw : front ++ filterRows color.channels prior
          ((filter, rowBytes row) :: rows.map (Prod.map id rowBytes)) =
        front ++ (filter.type :: filterRow filter color.channels prior (rowBytes row)) ++
          filterRows color.channels (rowBytes row) (rows.map (Prod.map id rowBytes)) := by
      rw [filterRows, List.append_assoc, List.cons_append]
    have hfront : (front ++ (filter.type ::
        filterRow filter color.channels prior (rowBytes row))).length =
        front.length + 1 + width * color.channels := by
      rw [List.length_append, List.length_cons, hfiltered]
      omega
    have htype : index (front ++ filterRows color.channels prior
        ((filter, rowBytes row) :: rows.map (Prod.map id rowBytes))) front.length =
        .ok filter.type := index_append_right front _ 0
    have hslice : ((front ++ filterRows color.channels prior
        ((filter, rowBytes row) :: rows.map (Prod.map id rowBytes))).drop
          (front.length + 1)).take (width * color.channels) =
        filterRow filter color.channels prior (rowBytes row) := by
      rw [filterRows, ← List.drop_drop, List.drop_left, List.cons_append, List.drop_one,
        List.tail_cons, ← hfiltered, List.take_left]
    have hunfilter : unfilterScanline filter.type
        (filterRow filter color.channels prior (rowBytes row)) prior color.channels =
        .ok (rowBytes row) :=
      unfilterScanline_filterRow filter color.channels_pos (hprior.trans hlen.symm)
    have hpixels : (List.range width).mapM (pixelAt (rowBytes row) color.channels) =
        .ok (row.toList.map color.withAlpha) := by
      have h := mapM_pixelAt color row.toList
      rwa [row.length_toList] at h
    have hrest := @ih (front ++ (filter.type ::
      filterRow filter color.channels prior (rowBytes row))) (rowBytes row) hlen
      (pixels ++ row.toList.map color.withAlpha)
    rw [hfront, ← hraw] at hrest
    rw [List.length_cons, List.map_cons, readScanlines]
    dsimp only [Prod.map, id]
    rw [htype]
    show (do
      let unfiltered ← unfilterScanline filter.type _ prior color.channels
      let rowPixels ← (List.range width).mapM (pixelAt unfiltered color.channels)
      readScanlines _ width color.channels rows.length _ unfiltered (pixels ++ rowPixels)) = _
    rw [hslice, hunfilter]
    show (do
      let rowPixels ← (List.range width).mapM (pixelAt (rowBytes row) color.channels)
      readScanlines _ width color.channels rows.length _ (rowBytes row) (pixels ++ rowPixels)) = _
    rw [hpixels]
    refine hrest.trans ?_
    rw [List.flatMap_cons, List.append_assoc]

theorem exists_type_of_unfilterScanline {filterType : UInt8} {row prev out : List UInt8} {bpp : ℕ}
    (h : unfilterScanline filterType row prev bpp = .ok out) :
    ∃ filter : PngFilter, filter.type = filterType := by
  unfold unfilterScanline at h
  split_ifs at h with hnone hsub hup haverage hpaeth
  · exact ⟨.none, hnone.symm⟩
  · exact ⟨.sub, hsub.symm⟩
  · exact ⟨.up, hup.symm⟩
  · exact ⟨.average, haverage.symm⟩
  · exact ⟨.paeth, hpaeth.symm⟩

theorem exists_rowBytes {color : PngColor} {width : ℕ} {bytes : List UInt8}
    (hlen : bytes.length = width * color.channels) :
    ∃ row : Vector (Vector UInt8 color.channels) width, rowBytes row = bytes := by
  obtain ⟨pixels, hpixels, hbytes⟩ : ∃ pixels : List (Vector UInt8 color.channels),
      pixels.length = width ∧ pixels.flatMap Vector.toList = bytes := by
    induction width generalizing bytes with
    | zero =>
      rw [Nat.zero_mul] at hlen
      exact ⟨[], rfl, (List.eq_nil_of_length_eq_zero hlen).symm⟩
    | succ width ih =>
      rw [Nat.add_one_mul] at hlen
      have hpixel : (bytes.take color.channels).length = color.channels :=
        List.length_take_of_le (by omega)
      obtain ⟨pixels, hpixels, hrest⟩ := @ih (bytes.drop color.channels) (by
        rw [List.length_drop]
        omega)
      refine ⟨⟨(bytes.take color.channels).toArray, hpixel⟩ :: pixels, ?_, ?_⟩
      · rw [List.length_cons, hpixels]
      · rw [List.flatMap_cons, hrest]
        exact List.take_append_drop _ _
  exact ⟨⟨pixels.toArray, hpixels⟩, hbytes⟩

theorem exists_filterRows {color : PngColor} {width height : ℕ}
    {front data prior : List UInt8} {pixels result : List Pixel}
    (hprior : prior.length = width * color.channels)
    (hlen : data.length = height * (1 + width * color.channels))
    (h : readScanlines (front ++ data) width color.channels height front.length prior pixels =
      .ok result) :
    ∃ rows : List (PngFilter × Vector (Vector UInt8 color.channels) width),
      rows.length = height ∧
      data = filterRows color.channels prior (rows.map (Prod.map id rowBytes)) := by
  induction height generalizing front data prior pixels with
  | zero =>
    rw [Nat.zero_mul] at hlen
    exact ⟨[], rfl, List.eq_nil_of_length_eq_zero hlen⟩
  | succ height ih =>
    obtain ⟨filterType, body, rfl⟩ : ∃ filterType body, data = filterType :: body := by
      cases data with
      | nil =>
        rw [List.length_nil, Nat.add_one_mul] at hlen
        omega
      | cons filterType body => exact ⟨filterType, body, rfl⟩
    rw [List.length_cons, Nat.add_one_mul] at hlen
    have hline : (body.take (width * color.channels)).length = width * color.channels :=
      List.length_take_of_le (by omega)
    have htype : index (front ++ filterType :: body) front.length = .ok filterType :=
      index_append_right front _ 0
    have hslice : ((front ++ filterType :: body).drop (front.length + 1)).take
        (width * color.channels) = body.take (width * color.channels) := by
      rw [← List.drop_drop, List.drop_left, List.drop_one, List.tail_cons]
    rw [readScanlines, htype] at h
    replace h : (do
        let unfiltered ← unfilterScanline filterType
          (((front ++ filterType :: body).drop (front.length + 1)).take (width * color.channels))
          prior color.channels
        let rowPixels ← (List.range width).mapM (pixelAt unfiltered color.channels)
        readScanlines (front ++ filterType :: body) width color.channels height
          (front.length + 1 + width * color.channels) unfiltered (pixels ++ rowPixels)) =
        .ok result := h
    rw [hslice] at h
    cases hunfilter : unfilterScanline filterType (body.take (width * color.channels)) prior
        color.channels with
    | error error =>
      rw [hunfilter] at h
      cases h
    | ok row =>
      obtain ⟨filter, rfl⟩ := exists_type_of_unfilterScanline hunfilter
      obtain ⟨source, hsource, hfiltered⟩ := exists_filterRow filter color.channels_pos prior
        (body.take (width * color.channels))
      rw [hline] at hsource
      obtain ⟨row', rfl⟩ := exists_rowBytes hsource
      have hrow := unfilterScanline_filterRow filter color.channels_pos (hprior.trans hsource.symm)
      rw [hfiltered, hunfilter] at hrow
      have hrow := Except.ok.inj hrow
      subst hrow
      have hfront : (front ++ filter.type :: body.take (width * color.channels)).length =
          front.length + 1 + width * color.channels := by
        rw [List.length_append, List.length_cons, hline]
        omega
      have hraw : front ++ filter.type :: body =
          front ++ filter.type :: body.take (width * color.channels) ++
            body.drop (width * color.channels) := by
        rw [List.append_assoc, List.cons_append, List.take_append_drop]
      have hpixels : (List.range width).mapM (pixelAt (rowBytes row') color.channels) =
          .ok (row'.toList.map color.withAlpha) := by
        have h := mapM_pixelAt color row'.toList
        rwa [row'.length_toList] at h
      have hrest : readScanlines (front ++ filter.type :: body.take (width * color.channels) ++
          body.drop (width * color.channels)) width color.channels height
          (front ++ filter.type :: body.take (width * color.channels)).length (rowBytes row')
          (pixels ++ row'.toList.map color.withAlpha) = .ok result := by
        rw [hunfilter] at h
        replace h : (do
            let rowPixels ← (List.range width).mapM (pixelAt (rowBytes row') color.channels)
            readScanlines (front ++ filter.type :: body) width color.channels height
              (front.length + 1 + width * color.channels) (rowBytes row') (pixels ++ rowPixels)) =
            .ok result := h
        rw [hpixels] at h
        rw [hfront, ← hraw]
        exact h
      obtain ⟨rows, hrows, hdata⟩ := ih hsource (by
        rw [List.length_drop]
        omega) hrest
      refine ⟨(filter, row') :: rows, by rw [List.length_cons, hrows], ?_⟩
      rw [List.map_cons]
      dsimp only [Prod.map, id]
      rw [filterRows, hfiltered, ← hdata, List.cons_append, List.take_append_drop]

theorem channels_colorType (color : PngColor) :
    (if color.colorType = 2 then 3 else 4) = color.channels := by
  cases color <;> rfl

theorem length_pngFilteredData {color : PngColor} {width : ℕ}
    (rows : List (PngFilter × Vector (Vector UInt8 color.channels) width)) :
    (pngFilteredData color.channels (width * color.channels)
      (rows.map (Prod.map id rowBytes))).length = rows.length * (1 + width * color.channels) := by
  rw [pngFilteredData, length_filterRows, List.length_map]
  intro row hrow
  obtain ⟨source, _, rfl⟩ := List.mem_map.mp hrow
  exact length_rowBytes source.2

/-- The data that are read are those of a filtered image, and they give its pixels. -/
theorem readPngRgba_ok_iff {path : String} {color : PngColor} {width height : ℕ} {raw : List UInt8}
    {pixels : List Pixel} :
    readPngRgba path width height color.colorType raw = .ok pixels ↔
      ∃ rows : List (PngFilter × Vector (Vector UInt8 color.channels) width),
        rows.length = height ∧
        raw = pngFilteredData color.channels (width * color.channels)
          (rows.map (Prod.map id rowBytes)) ∧
        pixels = rows.flatMap (fun row => row.2.toList.map color.withAlpha) := by
  constructor
  · intro h
    rw [readPngRgba, channels_colorType] at h
    have hlen : raw.length = height * (1 + width * color.channels) := by
      by_contra hne
      rw [if_pos hne] at h
      cases h
    rw [if_neg (not_not_intro hlen)] at h
    obtain ⟨rows, hrows, rfl⟩ := @exists_filterRows color width height [] raw _ [] pixels
      List.length_replicate hlen h
    refine ⟨rows, hrows, rfl, ?_⟩
    have hread := @readScanlines_filterRows color width rows []
      (List.replicate (width * color.channels) 0) List.length_replicate []
    rw [hrows] at hread
    exact Except.ok.inj (h.symm.trans hread)
  · rintro ⟨rows, rfl, rfl, rfl⟩
    rw [readPngRgba, channels_colorType, if_neg (not_not_intro (length_pngFilteredData rows))]
    exact @readScanlines_filterRows color width rows [] _ List.length_replicate []

/-- The scanlines of a filtered image give its pixels, whatever filter each row has. -/
theorem readPngRgba_filtered (path : String) (color : PngColor) (width : ℕ)
    (rows : List (PngFilter × Vector (Vector UInt8 color.channels) width)) :
    readPngRgba path width rows.length color.colorType
        (pngFilteredData color.channels (width * color.channels)
          (rows.map (Prod.map id rowBytes))) =
      .ok (rows.flatMap (fun row => row.2.toList.map color.withAlpha)) := by
  rw [readPngRgba, channels_colorType, if_neg (not_not_intro (length_pngFilteredData rows))]
  exact @readScanlines_filterRows color width rows [] _ List.length_replicate []

end StarrySky.Scripts
