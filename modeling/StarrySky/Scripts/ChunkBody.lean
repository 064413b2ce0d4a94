import StarrySky.Core.ChunkBody
import StarrySky.Scripts.PngScanlines

/-! The chunk bodies of `scripts/generate_compressed_chunks.py`: with a picture its pixels are the
top blocks of the nine spawn chunks, without one they are the fallback's. -/

namespace StarrySky.Scripts
open StarrySky.Base

abbrev chunkSectionBytes : ℕ := 8192 + 2048 + 2048 + 256

def spawnChunks : List (ℤ × ℤ) :=
  [(0, 0), (1, 0), (-1, 0), (0, 1), (0, -1), (1, 1), (-1, -1), (1, -1), (-1, 1)]

abbrev mapSize : ℕ := 48
abbrev chunkSize : ℕ := 16

def varintLoop (value : ℕ) : List UInt8 :=
  let temp := value &&& 0x7f
  let rest := value >>> 7
  if h : rest ≠ 0 then UInt8.ofNat (temp ||| 0x80) :: varintLoop rest else [UInt8.ofNat temp]
termination_by value
decreasing_by
  have hpos : value >>> 7 ≠ 0 := h
  rw [Nat.shiftRight_eq_div_pow] at hpos ⊢
  omega

/-- `value & 0xFFFFFFFF` is the remainder, also of a negative number. -/
def varint (value : ℤ) : List UInt8 := varintLoop (value % 2 ^ 32).toNat

/-- `int.to_bytes` with the high byte first. -/
def bigEndianBytes (n : ℕ) (value : ℕ) : List UInt8 :=
  (List.range n).map (fun i => UInt8.ofNat (value >>> (8 * (n - 1 - i))))

def i32 (value : ℤ) : Except ScriptError (List UInt8) :=
  if -2 ^ 31 ≤ value ∧ value < 2 ^ 31 then .ok (bigEndianBytes 4 (value % 2 ^ 32).toNat)
  else .error .overflowError

def u16 (value : ℤ) : Except ScriptError (List UInt8) :=
  if 0 ≤ value ∧ value < 2 ^ 16 then .ok (bigEndianBytes 2 value.toNat)
  else .error .overflowError

def blockForPosition (y : ℕ) (topBlock : ℕ) : ℕ :=
  if y = 0 then 7 <<< 4
  else if y ≤ 3 then 3 <<< 4
  else if y = 4 then topBlock
  else 0

def topBlockForLocal (topBlocks : Option (List (List ℕ))) (chunkX chunkZ : ℤ)
    (localX localZ : ℕ) : Except ScriptError ℕ :=
  match topBlocks with
  | none => .ok (2 <<< 4)
  | some rows =>
    let pixelX := (chunkX + 1) * chunkSize + localX
    let pixelZ := (chunkZ + 1) * chunkSize + localZ
    if ¬(0 ≤ pixelX ∧ pixelX < mapSize) ∨ ¬(0 ≤ pixelZ ∧ pixelZ < mapSize) then
      .error (.systemExit ("chunk (" ++ toString chunkX ++ ", " ++ toString chunkZ ++
        ") maps outside " ++ toString mapSize ++ "x" ++ toString mapSize ++ " PNG at x=" ++
        toString pixelX ++ " z=" ++ toString pixelZ))
    else do
      let row ← index rows pixelZ.toNat
      index row pixelX.toNat

def store (data : List UInt8) (i : ℕ) (byte : UInt8) : Except ScriptError (List UInt8) :=
  if i < data.length then .ok (data.set i byte) else .error .indexError

/-- `data[pos:pos + len(bytes)] = bytes`. -/
def setSlice (data : List UInt8) (pos : ℕ) (bytes : List UInt8) : List UInt8 :=
  data.take pos ++ bytes ++ data.drop (pos + bytes.length)

/-- The body of the three loops of `chunk_data`. -/
def setBlock (topBlocks : Option (List (List ℕ))) (chunkX chunkZ : ℤ) (y z : ℕ)
    (data : List UInt8) (x : ℕ) : Except ScriptError (List UInt8) := do
  let topBlock ← topBlockForLocal topBlocks chunkX chunkZ x z
  let block := blockForPosition y topBlock
  let off := (((y * 16) + z) * 16 + x) * 2
  let data ← store data off (UInt8.ofNat (block &&& 0xff))
  store data (off + 1) (UInt8.ofNat ((block >>> 8) &&& 0xff))

def chunkData (topBlocks : Option (List (List ℕ))) (chunkX chunkZ : ℤ) :
    Except ScriptError (List UInt8) := do
  let data := List.replicate chunkSectionBytes 0
  let data ← (List.range 16).foldlM (fun data y =>
    (List.range 16).foldlM (fun data z =>
      (List.range 16).foldlM (setBlock topBlocks chunkX chunkZ y z) data) data) data
  let pos := 8192
  let data := setSlice data pos (List.replicate 2048 0xff)
  let pos := pos + 2048
  let data := setSlice data pos (List.replicate 2048 0xff)
  let pos := pos + 2048
  return setSlice data pos (List.replicate 256 1)

def chunkBody (chunkX chunkZ : ℤ) (topBlocks : Option (List (List ℕ))) :
    Except ScriptError (List UInt8) := do
  let data ← chunkData topBlocks chunkX chunkZ
  let x ← i32 chunkX
  let z ← i32 chunkZ
  let mask ← u16 0x0001
  return varint 0x21 ++ x ++ z ++ [1] ++ mask ++ varint data.length ++ data

/-! The numbers in front of the data are those of the firmware's writer. -/

theorem toNat_emod_toInt (value : Int32) :
    (value.toInt % 2 ^ 32).toNat = value.toUInt32.toNat := by
  have hlt := value.toBitVec.isLt
  show (value.toBitVec.toInt % 2 ^ 32).toNat = value.toBitVec.toNat
  rw [BitVec.toInt_eq_toNat_cond]
  split_ifs <;> omega

theorem varintLoop_eq {room : ℕ} {v : UInt32} {bytes : List UInt8}
    (h : Core.mcVarintEncodeLoop v room = some bytes) : varintLoop v.toNat = bytes := by
  induction room generalizing v bytes with
  | zero => exact absurd h.symm (Option.some_ne_none bytes)
  | succ room ih =>
    have hlow : (v &&& 0x7f).toUInt8 = UInt8.ofNat (v.toNat &&& 0x7f) := by
      rw [UInt32.toUInt8, UInt32.toNat_and]
      rfl
    have hrest : (v >>> 7).toNat = v.toNat >>> 7 := by
      rw [UInt32.toNat_shiftRight]
      rfl
    have hzero : v >>> 7 ≠ 0 ↔ v.toNat >>> 7 ≠ 0 := by
      rw [← hrest, ne_eq, ne_eq, ← UInt32.toNat_inj]
      rfl
    rw [Core.mcVarintEncodeLoop] at h
    rw [varintLoop]
    by_cases hmore : v >>> 7 ≠ 0
    · rw [dif_pos (hzero.mp hmore)]
      have hmap : (Core.mcVarintEncodeLoop (v >>> 7) room).map
          (((v &&& 0x7f).toUInt8 ||| 0x80) :: ·) = some bytes := (if_pos hmore).symm.trans h
      obtain ⟨rest, hloop, rfl⟩ := Option.map_eq_some_iff.mp hmap
      rw [← hrest, ih hloop, hlow, UInt8.ofNat_or]
      rfl
    · rw [dif_neg (mt hzero.mpr hmore)]
      have hlast : some [(v &&& 0x7f).toUInt8] = some bytes := (if_neg hmore).symm.trans h
      rw [← Option.some.inj hlast, hlow]

theorem varint_eq (value : Int32) : varint value.toInt = Core.varintBytes value := by
  rw [varint, toNat_emod_toInt]
  exact varintLoop_eq (Core.mcVarintEncode_eq value)

theorem i32_eq (value : Int32) :
    i32 value.toInt = .ok (Core.McWriter.bigEndian32 value.toUInt32) := by
  have hrange : -2 ^ 31 ≤ value.toInt ∧ value.toInt < 2 ^ 31 :=
    ⟨value.le_toInt, value.toInt_lt⟩
  have hbyte : ∀ shift : UInt32, shift.toNat < 32 → (value.toUInt32 >>> shift).toUInt8 =
      UInt8.ofNat (value.toUInt32.toNat >>> shift.toNat) := by
    intro shift hshift
    rw [UInt32.toUInt8, UInt32.toNat_shiftRight, Nat.mod_eq_of_lt hshift]
  rw [i32, if_pos hrange, toNat_emod_toInt, Core.McWriter.bigEndian32, hbyte 24 (by decide),
    hbyte 16 (by decide), hbyte 8 (by decide), hbyte 0 (by decide)]
  rfl

/-! Without failures the loops write the blocks in the order of the firmware's. -/

theorem ofNat_and_ff (n : ℕ) : UInt8.ofNat (n &&& 0xff) = UInt8.ofNat n := by
  apply UInt8.toNat_inj.mp
  rw [UInt8.toNat_ofNat', UInt8.toNat_ofNat', Nat.and_two_pow_sub_one_eq_mod _ 8, Nat.mod_mod]

theorem low_ofNat {block : ℕ} (hblock : block < 2 ^ 16) :
    (UInt16.ofNat block).toUInt8 = UInt8.ofNat (block &&& 0xff) := by
  rw [UInt16.toUInt8, UInt16.toNat_ofNat_of_lt' hblock, ofNat_and_ff]

theorem high_ofNat {block : ℕ} (hblock : block < 2 ^ 16) :
    (UInt16.ofNat block >>> 8).toUInt8 = UInt8.ofNat ((block >>> 8) &&& 0xff) := by
  have hhigh : (UInt16.ofNat block >>> 8).toNat = block >>> 8 := by
    rw [UInt16.toNat_shiftRight, UInt16.toNat_ofNat_of_lt' hblock]
    rfl
  rw [UInt16.toUInt8, hhigh, ofNat_and_ff]

theorem blockForPosition_lt {y topBlock : ℕ} (htop : topBlock < 2 ^ 16) :
    blockForPosition y topBlock < 2 ^ 16 := by
  rw [blockForPosition]
  split_ifs
  · decide
  · decide
  · exact htop
  · decide

theorem setSlice_replicate (data : List UInt8) (pos len : ℕ) (byte : UInt8) :
    setSlice data pos (List.replicate len byte) = Core.memset data pos byte len := by
  rw [setSlice, Core.memset, List.length_replicate]

section
variable {topBlocks : Option (List (List ℕ))} {chunkX chunkZ : ℤ} {top : ℕ → ℕ → UInt16}

theorem setBlock_storesBlock {y z x : ℕ}
    (htop : topBlockForLocal topBlocks chunkX chunkZ x z = .ok (top z x).toNat) :
    StoresBlock (setBlock topBlocks chunkX chunkZ y z)
      (fun x => leBytes (UInt16.ofNat (blockForPosition y (top z x).toNat)))
      ((y * 16 + z) * 16 * 2) 2 x := by
  intro done rest hdone hrest
  have hoffset : (((y * 16) + z) * 16 + x) * 2 = done.length := by omega
  have hblock : blockForPosition y (top z x).toNat < 2 ^ 16 :=
    blockForPosition_lt (top z x).toNat_lt
  have hroom : done.length + 1 < (done ++ rest).length := by
    rw [List.length_append]
    omega
  have hstores := @Core.storeBlock_append done rest
    (UInt16.ofNat (blockForPosition y (top z x).toNat)) hrest
  rw [setBlock, htop]
  show (do
    let data ← store (done ++ rest) ((((y * 16) + z) * 16 + x) * 2)
      (UInt8.ofNat (blockForPosition y (top z x).toNat &&& 0xff))
    store data ((((y * 16) + z) * 16 + x) * 2 + 1)
      (UInt8.ofNat ((blockForPosition y (top z x).toNat >>> 8) &&& 0xff))) = _
  rw [hoffset, ← low_ofNat hblock, ← high_ofNat hblock, store, if_pos (Nat.lt_of_succ_lt hroom)]
  show store _ _ _ = _
  rw [store, List.length_set, if_pos hroom]
  exact congrArg Except.ok hstores

theorem chunkData_eq
    (htop : ∀ z < 16, ∀ x < 16,
      topBlockForLocal topBlocks chunkX chunkZ x z = .ok (top z x).toNat) :
    chunkData topBlocks chunkX chunkZ = .ok (Core.chunkDataBytes (fun y z x =>
      UInt16.ofNat (blockForPosition y (top z x).toNat))) := by
  have hlen : 8192 ≤ (List.replicate chunkSectionBytes (0 : UInt8)).length := by
    rw [List.length_replicate]
    decide
  have hloops := Core.foldlM_sectionBytes
    (fun y _ z hz x hx => setBlock_storesBlock (y := y) (htop z hz x hx)) hlen
  rw [List.drop_replicate] at hloops
  rw [chunkData]
  dsimp only
  rw [hloops]
  show Except.ok (setSlice (setSlice (setSlice _ _ _) _ _) _ _) = _
  simp only [setSlice_replicate]
  exact congrArg Except.ok (Core.memset_chunkDataBytes _)

end

theorem chunkBody_eq (chunkX chunkZ : Int32) {topBlocks : Option (List (List ℕ))}
    {top : ℕ → ℕ → UInt16}
    (htop : ∀ z < 16, ∀ x < 16,
      topBlockForLocal topBlocks chunkX.toInt chunkZ.toInt x z = .ok (top z x).toNat) :
    chunkBody chunkX.toInt chunkZ.toInt topBlocks =
      .ok (Core.chunkHeader chunkX chunkZ ++ Core.chunkDataBytes (fun y z x =>
        UInt16.ofNat (blockForPosition y (top z x).toNat))) := by
  have hid : varint 0x21 = Core.varintBytes 0x21 := varint_eq 0x21
  have hlen : varint (Core.mcChunkSectionBytes : ℕ) = Core.varintBytes 12544 := varint_eq 12544
  have hmask : u16 0x0001 = .ok (Core.McWriter.bigEndian16 1) := rfl
  rw [chunkBody, chunkData_eq htop]
  show (do
    let x ← i32 chunkX.toInt
    let z ← i32 chunkZ.toInt
    let mask ← u16 0x0001
    return varint 0x21 ++ x ++ z ++ [1] ++ mask ++
      varint (Core.chunkDataBytes _).length ++ Core.chunkDataBytes _) = _
  rw [i32_eq, i32_eq, hmask, Core.length_chunkDataBytes, hid, hlen]
  rfl

theorem chunkBody_fallback {cfg : Core.McConfig} (hcfg : cfg.usePsramCompressedMap = false)
    (chunkX chunkZ : Int32) :
    ∃ body, chunkBody chunkX.toInt chunkZ.toInt none = .ok body ∧ ∀ bodyCap,
      Core.mcWorldBuildChunkBody cfg chunkX chunkZ bodyCap =
        if body.length ≤ bodyCap then some body else none := by
  have hgrass : ∀ z < 16, ∀ x < 16,
      topBlockForLocal none chunkX.toInt chunkZ.toInt x z = .ok ((2 : UInt16) <<< 4).toNat :=
    fun _ _ _ _ => rfl
  have hblocks : (fun y _ _ : ℕ => UInt16.ofNat (blockForPosition y ((2 : UInt16) <<< 4).toNat)) =
      fun y _ _ => Core.blockForY y := by
    funext y _ _
    rw [blockForPosition, Core.blockForY]
    split_ifs <;> rfl
  have hbody := @chunkBody_eq chunkX chunkZ none (fun _ _ => (2 : UInt16) <<< 4) hgrass
  rw [hblocks] at hbody
  refine ⟨_, hbody, fun bodyCap => ?_⟩
  have hlength : 14 + Core.mcChunkSectionBytes = 12558 := rfl
  rw [Core.mcWorldBuildChunkBody_eq hcfg, List.length_append, Core.length_chunkDataBytes,
    Core.length_chunkHeader, hlength]

/-! What a client reads in a body: the chunk's coordinates and its blocks. -/

def readInt32 (bytes : List UInt8) : Int32 :=
  (UInt32.ofNat (bytes.foldl (fun n byte => n * 256 + byte.toNat) 0)).toInt32

def columnPosition (body : List UInt8) (x z : ℕ) : ℤ × ℤ :=
  (16 * (readInt32 ((body.drop 1).take 4)).toInt + x,
    16 * (readInt32 ((body.drop 5).take 4)).toInt + z)

def blockAt (body : List UInt8) (x y z : ℕ) : UInt16 :=
  let off := 14 + ((y * 16 + z) * 16 + x) * 2
  ofLeBytes (body.getD off 0) (body.getD (off + 1) 0)

theorem readInt32_bigEndian32 (value : Int32) :
    readInt32 (Core.McWriter.bigEndian32 value.toUInt32) = value := by
  have hlt : value.toUInt32.toNat < 2 ^ 32 := value.toUInt32.toNat_lt
  have hbytes : UInt32.ofNat ((Core.McWriter.bigEndian32 value.toUInt32).foldl
      (fun n byte => n * 256 + byte.toNat) 0) = value.toUInt32 := by
    apply UInt32.toNat_inj.mp
    rw [UInt32.toNat_ofNat']
    simp only [Core.McWriter.bigEndian32, List.foldl_cons, List.foldl_nil, UInt32.toNat_toUInt8,
      UInt32.toNat_shiftRight, UInt32.reduceToNat, Nat.reduceMod, Nat.shiftRight_eq_div_pow,
      Nat.reducePow]
    omega
  rw [readInt32, hbytes]
  rfl

theorem columnPosition_chunkHeader (chunkX chunkZ : Int32) (data : List UInt8) (x z : ℕ) :
    columnPosition (Core.chunkHeader chunkX chunkZ ++ data) x z =
      (16 * chunkX.toInt + x, 16 * chunkZ.toInt + z) := by
  have hx : ((Core.chunkHeader chunkX chunkZ ++ data).drop 1).take 4 =
      Core.McWriter.bigEndian32 chunkX.toUInt32 := rfl
  have hz : ((Core.chunkHeader chunkX chunkZ ++ data).drop 5).take 4 =
      Core.McWriter.bigEndian32 chunkZ.toUInt32 := rfl
  rw [columnPosition, hx, hz, readInt32_bigEndian32, readInt32_bigEndian32]

theorem getD_chunkHeader (chunkX chunkZ : Int32) (block : ℕ → ℕ → ℕ → UInt16) {x y z j : ℕ}
    (hx : x < 16) (hy : y < 16) (hz : z < 16) (hj : j < 2) :
    (Core.chunkHeader chunkX chunkZ ++ Core.chunkDataBytes block).getD
      (14 + ((y * 16 + z) * 16 + x) * 2 + j) 0 = (leBytes (block y z x)).getD j 0 := by
  have hheader : (Core.chunkHeader chunkX chunkZ).length = 14 := Core.length_chunkHeader ..
  have hsection : ((y * 16 + z) * 16 + x) * 2 + j < (Core.sectionBytes block).length := by
    rw [Core.length_sectionBytes]
    omega
  rw [Nat.add_assoc, List.getD_append_right _ _ _ _ (by omega), hheader, Nat.add_sub_cancel_left,
    Core.chunkDataBytes, List.append_assoc, List.append_assoc,
    List.getD_append _ _ _ _ hsection, List.getD_eq_getElem?_getD,
    Core.getElem?_sectionBytes block hx hy hz hj, ← List.getD_eq_getElem?_getD]

theorem blockAt_chunkHeader (chunkX chunkZ : Int32) (block : ℕ → ℕ → ℕ → UInt16) {x y z : ℕ}
    (hx : x < 16) (hy : y < 16) (hz : z < 16) :
    blockAt (Core.chunkHeader chunkX chunkZ ++ Core.chunkDataBytes block) x y z = block y z x := by
  have hlow := getD_chunkHeader chunkX chunkZ block hx hy hz (show 0 < 2 by decide)
  have hhigh := getD_chunkHeader chunkX chunkZ block hx hy hz (show 1 < 2 by decide)
  rw [Nat.add_zero] at hlow
  rw [blockAt, hlow, hhigh]
  exact ofLeBytes_leBytes (block y z x)

/-- A grid of packed block states as the script has it, row by row. -/
def gridRows (grid : Fin mapSize → Fin mapSize → UInt16) : List (List ℕ) :=
  List.ofFn (fun z => List.ofFn (fun x => (grid z x).toNat))

/-- A block column: bedrock, dirt, the block of the picture and air. -/
def pictureColumn (top : UInt16) (y : ℕ) : UInt16 :=
  if y = 0 then (7 : UInt16) <<< 4 else if y ≤ 3 then (3 : UInt16) <<< 4
  else if y = 4 then top else 0

def gridTop (grid : Fin mapSize → Fin mapSize → UInt16) (pixelZ pixelX : ℕ) : UInt16 :=
  if h : pixelZ < mapSize ∧ pixelX < mapSize then grid ⟨pixelZ, h.1⟩ ⟨pixelX, h.2⟩ else 0

theorem ofNat_blockForPosition (y : ℕ) (top : UInt16) :
    UInt16.ofNat (blockForPosition y top.toNat) = pictureColumn top y := by
  rw [blockForPosition, pictureColumn]
  split_ifs
  · rfl
  · rfl
  · exact UInt16.ofNat_toNat
  · rfl

theorem spawnChunks_get (i : Fin spawnChunks.length) :
    ∃ a b : Fin 3, spawnChunks.get i = ((a : ℤ) - 1, (b : ℤ) - 1) := by
  revert i
  decide

theorem exists_spawnChunks_get (a b : Fin 3) :
    ∃ i, spawnChunks.get i = ((a : ℤ) - 1, (b : ℤ) - 1) := by
  revert a b
  decide

theorem spawnChunks_nodup : spawnChunks.Nodup := by decide

theorem topBlockForLocal_gridRows (grid : Fin mapSize → Fin mapSize → UInt16) (a b : Fin 3)
    {x z : ℕ} (hx : x < 16) (hz : z < 16) :
    topBlockForLocal (some (gridRows grid)) ((a : ℤ) - 1) ((b : ℤ) - 1) x z =
      .ok (gridTop grid (16 * b + z) (16 * a + x)).toNat := by
  have hpixelX : ((a : ℤ) - 1 + 1) * chunkSize + x = ((16 * a + x : ℕ) : ℤ) := by
    push_cast
    ring
  have hpixelZ : ((b : ℤ) - 1 + 1) * chunkSize + z = ((16 * b + z : ℕ) : ℤ) := by
    push_cast
    ring
  have hltX : 16 * (a : ℕ) + x < 48 := by omega
  have hltZ : 16 * (b : ℕ) + z < 48 := by omega
  have hinside : ¬(¬(0 ≤ ((16 * a + x : ℕ) : ℤ) ∧ ((16 * a + x : ℕ) : ℤ) < (mapSize : ℕ)) ∨
      ¬(0 ≤ ((16 * b + z : ℕ) : ℤ) ∧ ((16 * b + z : ℕ) : ℤ) < (mapSize : ℕ))) := by
    simp only [mapSize]
    omega
  have hrow : index (gridRows grid) (16 * b + z) =
      .ok (List.ofFn (fun x => (grid ⟨16 * b + z, hltZ⟩ x).toNat)) := by
    rw [index_of_lt (by rw [gridRows, List.length_ofFn]; exact hltZ)]
    simp only [gridRows, List.getElem_ofFn]
  have hcell : index (List.ofFn (fun x => (grid ⟨16 * b + z, hltZ⟩ x).toNat)) (16 * a + x) =
      .ok (grid ⟨16 * b + z, hltZ⟩ ⟨16 * a + x, hltX⟩).toNat := by
    rw [index_of_lt (by rw [List.length_ofFn]; exact hltX)]
    simp only [List.getElem_ofFn]
  rw [topBlockForLocal, hpixelX, hpixelZ, if_neg hinside, Int.toNat_natCast, Int.toNat_natCast,
    hrow, gridTop, dif_pos ⟨hltZ, hltX⟩]
  exact hcell

theorem chunkBody_gridRows (grid : Fin mapSize → Fin mapSize → UInt16) (a b : Fin 3) :
    ∃ body, chunkBody ((a : ℤ) - 1) ((b : ℤ) - 1) (some (gridRows grid)) = .ok body ∧
      (∀ x z, columnPosition body x z = (16 * ((a : ℤ) - 1) + x, 16 * ((b : ℤ) - 1) + z)) ∧
      ∀ x < 16, ∀ y < 16, ∀ z < 16,
        blockAt body x y z = pictureColumn (gridTop grid (16 * b + z) (16 * a + x)) y := by
  have hcoord : ∀ c : Fin 3, (Int32.ofInt ((c : ℤ) - 1)).toInt = (c : ℤ) - 1 := by decide
  have hbody := @chunkBody_eq (Int32.ofInt ((a : ℤ) - 1)) (Int32.ofInt ((b : ℤ) - 1))
    (some (gridRows grid)) (fun z x => gridTop grid (16 * b + z) (16 * a + x))
    (fun z hz x hx => by rw [hcoord, hcoord]; exact topBlockForLocal_gridRows grid a b hx hz)
  simp only [ofNat_blockForPosition] at hbody
  rw [hcoord, hcoord] at hbody
  refine ⟨_, hbody, fun x z => ?_, fun x hx y hy z hz => ?_⟩
  · rw [columnPosition_chunkHeader, hcoord, hcoord]
  · rw [blockAt_chunkHeader _ _ _ hx hy hz]

/-- The nine bodies of a picture have each of its pixels in exactly one block column, and
nothing else; without a picture a body is the one that the firmware builds. -/
theorem chunkBody_reproduces :
    (∀ grid : Fin mapSize → Fin mapSize → UInt16,
      ∃ bodies : Fin spawnChunks.length → List UInt8,
        (∀ i, chunkBody (spawnChunks.get i).1 (spawnChunks.get i).2 (some (gridRows grid)) =
          .ok (bodies i)) ∧
        (∀ pixelZ pixelX : Fin mapSize, ∃! place : Fin spawnChunks.length × Fin 16 × Fin 16,
          columnPosition (bodies place.1) place.2.1 place.2.2 =
            ((pixelX : ℤ) - 16, (pixelZ : ℤ) - 16)) ∧
        ∀ (i : Fin spawnChunks.length) (x z : Fin 16), ∃ pixelZ pixelX : Fin mapSize,
          columnPosition (bodies i) x z = ((pixelX : ℤ) - 16, (pixelZ : ℤ) - 16) ∧
            ∀ y < 16, blockAt (bodies i) x y z = pictureColumn (grid pixelZ pixelX) y) ∧
    ∀ cfg : Core.McConfig, cfg.usePsramCompressedMap = false → ∀ chunkX chunkZ : Int32,
      ∃ body, chunkBody chunkX.toInt chunkZ.toInt none = .ok body ∧ ∀ bodyCap,
        Core.mcWorldBuildChunkBody cfg chunkX chunkZ bodyCap =
          if body.length ≤ bodyCap then some body else none := by
  refine ⟨fun grid => ?_, fun cfg hcfg => chunkBody_fallback hcfg⟩
  choose a b hget using spawnChunks_get
  have hbodies : ∀ i, ∃ body,
      chunkBody (spawnChunks.get i).1 (spawnChunks.get i).2 (some (gridRows grid)) = .ok body ∧
      (∀ x z, columnPosition body x z =
        (16 * (spawnChunks.get i).1 + x, 16 * (spawnChunks.get i).2 + z)) ∧
      ∀ x < 16, ∀ y < 16, ∀ z < 16,
        blockAt body x y z = pictureColumn (gridTop grid (16 * b i + z) (16 * a i + x)) y := by
    intro i
    rw [hget i]
    exact chunkBody_gridRows grid (a i) (b i)
  choose bodies hbody hposition hblocks using hbodies
  refine ⟨bodies, hbody, fun pixelZ pixelX => ?_, fun i x z => ?_⟩
  · have hltX : (pixelX : ℕ) < 48 := pixelX.isLt
    have hltZ : (pixelZ : ℕ) < 48 := pixelZ.isLt
    obtain ⟨i, hi⟩ := exists_spawnChunks_get ⟨pixelX / 16, by omega⟩ ⟨pixelZ / 16, by omega⟩
    refine ⟨(i, ⟨pixelX % 16, Nat.mod_lt _ (by decide)⟩, ⟨pixelZ % 16, Nat.mod_lt _ (by decide)⟩),
      ?_, ?_⟩
    · beta_reduce
      rw [hposition, hi]
      apply Prod.ext
      · push_cast
        omega
      · push_cast
        omega
    · rintro ⟨j, x, z⟩ hplace
      -- a place tells the chunk and the position in it, so no two show one pixel
      rw [hposition, hget j, Prod.mk.injEq] at hplace
      obtain ⟨hplaceX, hplaceZ⟩ := hplace
      dsimp only at hplaceX hplaceZ
      have hx : (x : ℕ) = pixelX % 16 := by omega
      have hz : (z : ℕ) = pixelZ % 16 := by omega
      have hget' : spawnChunks.get j = spawnChunks.get i := by
        rw [hi, hget j]
        apply Prod.ext
        · push_cast
          omega
        · push_cast
          omega
      have hij : j = i := List.nodup_iff_injective_get.mp spawnChunks_nodup hget'
      exact Prod.ext hij (Prod.ext (Fin.ext hx) (Fin.ext hz))
  · have hltX : 16 * (a i : ℕ) + x < mapSize := by
      show _ < 48
      omega
    have hltZ : 16 * (b i : ℕ) + z < mapSize := by
      show _ < 48
      omega
    refine ⟨⟨16 * b i + z, hltZ⟩, ⟨16 * a i + x, hltX⟩, ?_, fun y hy => ?_⟩
    · rw [hposition, hget i]
      apply Prod.ext
      · push_cast
        ring
      · push_cast
        ring
    · rw [hblocks i x x.isLt y hy z z.isLt, gridTop, dif_pos ⟨hltZ, hltX⟩]

/-- A build without compression. -/
def plainConfig : Core.McConfig where
  protocolCompressionEnable := false
  usePsramCompressedMap := false
  compressionThreshold := 256
  keepaliveIntervalTicks := 1
  compressedAssets := []
  compressedTotalBytes := 0
  compressedArenaLen := 0
  psram_requires := fun h => h
  threshold_pos := by decide
  interval_pos := by decide

theorem chunkBody_reproduces_plain :
    ∃ body, chunkBody (-1 : Int32).toInt (7 : Int32).toInt none = .ok body ∧ ∀ bodyCap,
      Core.mcWorldBuildChunkBody plainConfig (-1) 7 bodyCap =
        if body.length ≤ bodyCap then some body else none :=
  chunkBody_reproduces.2 plainConfig rfl (-1) 7

end StarrySky.Scripts
