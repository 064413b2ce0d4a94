import StarrySky.Core.PacketWrap
import StarrySky.Core.World

/-! `core/src/mc_world_compressed.c` with its arena and its static variables: the table of assets
is copied to the arena once, and the chunks are sent from there. -/

namespace StarrySky.Core.CompressedWorld
open StarrySky.Base

/-- An asset of the linked table; `compressed` points to at least `compressedLen` bytes. -/
structure McWorldCompressedAsset where
  chunkX : Int32
  chunkZ : Int32
  rawBodyLen : UInt32
  compressedLen : UInt32
  compressed : Option (List UInt8)
  stored : ∀ bytes, compressed = some bytes → compressedLen.toNat ≤ bytes.length

def McWorldCompressedAsset.bytes (asset : McWorldCompressedAsset) : List UInt8 :=
  (asset.compressed.getD []).take asset.compressedLen.toNat

structure RuntimeChunk where
  chunkX : Int32
  chunkZ : Int32
  rawBodyLen : UInt32
  compressedLen : UInt32
  compressed : Option ℕ
deriving DecidableEq

def runtimeChunk (asset : McWorldCompressedAsset) (pos : ℕ) : RuntimeChunk where
  chunkX := asset.chunkX
  chunkZ := asset.chunkZ
  rawBodyLen := asset.rawBodyLen
  compressedLen := asset.compressedLen
  compressed := some pos

/-- The static variables, and the memory of the arena. -/
structure World where
  arena : List UInt8
  runtimeChunks : Vector RuntimeChunk mcWorldCompressedMaxChunks
  runtimeChunkCount : ℕ
  runtimeReady : Bool

/-- What the caller hands over: a pointer to at least `len` bytes, or none. -/
structure Arena where
  memory : Option (List UInt8)
  len : ℕ
  len_le : ∀ bytes, memory = some bytes → len ≤ bytes.length

abbrev int32Max : ℕ := 2 ^ 31 - 1

def compressedChunkFrameValid (rawBodyLen compressedLen : UInt32) : Bool :=
  if rawBodyLen = 0 ∨ rawBodyLen.toNat > mcMaxPacketBody ∨
      compressedLen = 0 ∨ compressedLen.toNat > mcMaxPacketBody then false
  else
    match mcVarintEncode rawBodyLen.toInt32 5 with
    | none => false
    | some dataLen =>
      if compressedLen.toNat > int32Max - dataLen.length then false
      else
        let innerLen := dataLen.length + compressedLen.toNat
        if innerLen > mcMaxPacketBody ∨ (mcVarintEncode (Int32.ofNat innerLen) 5).isNone then false
        else true

/-- `memcpy(dst + pos, bytes, length of bytes)`. -/
def copyTo (memory : List UInt8) (pos : ℕ) (bytes : List UInt8) : List UInt8 :=
  memory.take pos ++ bytes ++ memory.drop (pos + bytes.length)

/-- The loop of `mc_world_compressed_init` from asset `i` on. Where it stops, what it has copied and
the slots it has filled stay. -/
def copyLoop (arenaLen : ℕ) (world : World) (i pos : ℕ) :
    List McWorldCompressedAsset → Bool × World
  | [] => (true, world)
  | asset :: assets =>
    if asset.compressed = none ∨ asset.compressedLen = 0 ∨
        !compressedChunkFrameValid asset.rawBodyLen asset.compressedLen ∨ pos > arenaLen ∨
        asset.compressedLen.toNat > arenaLen - pos then (false, world)
    else
      let world := { world with
        arena := copyTo world.arena pos asset.bytes
        runtimeChunks := world.runtimeChunks.setIfInBounds i (runtimeChunk asset pos) }
      copyLoop arenaLen world (i + 1) (pos + asset.compressedLen.toNat) assets

def mcWorldCompressedInit (assets : List McWorldCompressedAsset) (totalBytes : UInt32)
    (world : World) (arena : Arena) : Bool × World :=
  let world := { world with runtimeReady := false, runtimeChunkCount := 0 }
  match arena.memory with
  | none => (false, world)
  | some memory =>
    let world := { world with arena := memory }
    if assets.length > mcWorldCompressedMaxChunks then (false, world)
    else if totalBytes.toNat > arena.len then (false, world)
    else
      match copyLoop arena.len world 0 0 assets with
      | (false, world) => (false, world)
      | (true, world) =>
        (true, { world with runtimeChunkCount := assets.length, runtimeReady := true })

def mcWorldCompressedChunk (world : World) (index : ℕ) : Option RuntimeChunk :=
  if !world.runtimeReady ∨ index ≥ world.runtimeChunkCount then none
  else world.runtimeChunks[index]?

/-- The `compressed_len` bytes that a chunk points to. -/
def World.payload (world : World) (chunk : RuntimeChunk) : List UInt8 :=
  (world.arena.drop (chunk.compressed.getD 0)).take chunk.compressedLen.toNat

def mcWorldQueueCompressedSpawnChunk (world : World) (tx : TxRing) (index : ℕ) : Bool × TxRing :=
  match mcWorldCompressedChunk world index with
  | none => (false, tx)
  | some chunk =>
    if !compressedChunkFrameValid chunk.rawBodyLen chunk.compressedLen then (false, tx)
    else
      match mcVarintEncode chunk.rawBodyLen.toInt32 5 with
      | none => (false, tx)
      | some dataLen =>
        if chunk.compressedLen.toNat > int32Max - dataLen.length then (false, tx)
        else
          let innerLen := dataLen.length + chunk.compressedLen.toNat
          match mcVarintEncode (Int32.ofNat innerLen) 5 with
          | none => (false, tx)
          | some header =>
            if tx.free < header.length + innerLen then (false, tx)
            else tx.writeAll [header, dataLen, world.payload chunk]

theorem McWorldCompressedAsset.length_bytes {asset : McWorldCompressedAsset}
    (h : asset.compressed ≠ none) : asset.bytes.length = asset.compressedLen.toNat := by
  obtain ⟨bytes, hbytes⟩ := Option.ne_none_iff_exists'.mp h
  rw [McWorldCompressedAsset.bytes, hbytes, Option.getD_some, List.length_take,
    Nat.min_eq_left (asset.stored _ hbytes)]

/-- A frame with this data length and this much data stays within the limit of a reader. -/
structure FrameFits (rawBodyLen compressedLen : UInt32) : Prop where
  raw_pos : 0 < rawBodyLen.toNat
  raw_le : rawBodyLen.toNat ≤ mcMaxPacketBody
  compressed_pos : 0 < compressedLen.toNat
  inner_le : (varintBytes rawBodyLen.toInt32).length + compressedLen.toNat ≤ mcMaxPacketBody

theorem compressedChunkFrameValid_iff (rawBodyLen compressedLen : UInt32) :
    compressedChunkFrameValid rawBodyLen compressedLen = true ↔
      FrameFits rawBodyLen compressedLen := by
  have hvarint := length_varintBytes_le rawBodyLen.toInt32
  have hraw : rawBodyLen = 0 ↔ rawBodyLen.toNat = 0 := UInt32.toNat_inj.symm
  have hcompressed : compressedLen = 0 ↔ compressedLen.toNat = 0 := UInt32.toNat_inj.symm
  have hmax : mcMaxPacketBody = 32768 := rfl
  have hint : int32Max = 2147483647 := rfl
  rw [compressedChunkFrameValid]
  simp only [hraw, hcompressed, mcVarintEncode_eq, Option.isNone_some, Bool.false_eq_true,
    or_false, hint]
  split_ifs with hbounds hoverflow hinner
  · refine iff_of_false not_false fun h => ?_
    obtain ⟨h1, h2, h3, h4⟩ := h
    omega
  · refine iff_of_false not_false fun h => ?_
    have := h.inner_le
    omega
  · refine iff_of_false not_false fun h => ?_
    have := h.inner_le
    omega
  · refine iff_of_true rfl ⟨?_, ?_, ?_, ?_⟩ <;> omega

/-- An asset that the loop does not stop at. -/
structure Accepted (asset : McWorldCompressedAsset) : Prop where
  pointer : asset.compressed ≠ none
  fits : FrameFits asset.rawBodyLen asset.compressedLen

theorem copyTo_append {done rest : List UInt8} {pos : ℕ} (hpos : done.length = pos)
    (bytes : List UInt8) :
    copyTo (done ++ rest) pos bytes = done ++ bytes ++ rest.drop bytes.length := by
  rw [copyTo, ← hpos, List.take_left, List.drop_append, List.drop_of_length_le (by omega),
    Nat.add_sub_cancel_left, List.nil_append]

theorem copyLoop_true {arenaLen : ℕ} {assets : List McWorldCompressedAsset} {world world' : World}
    {i pos : ℕ} (h : copyLoop arenaLen world i pos assets = (true, world'))
    (hslots : i + assets.length ≤ mcWorldCompressedMaxChunks) {done rest : List UInt8}
    (harena : world.arena = done ++ rest) (hpos : done.length = pos) (hle : pos ≤ arenaLen) :
    world'.arena = done ++ assets.flatMap (·.bytes) ++
        rest.drop (assets.flatMap (·.bytes)).length ∧
      pos + (assets.flatMap (·.bytes)).length ≤ arenaLen ∧
      (∀ k < i, world'.runtimeChunks[k]? = world.runtimeChunks[k]?) ∧
      ∀ j asset, assets[j]? = some asset → Accepted asset ∧ world'.runtimeChunks[i + j]? =
        some (runtimeChunk asset (pos + ((assets.take j).flatMap (·.bytes)).length)) := by
  induction assets generalizing world i pos done rest with
  | nil =>
    obtain rfl : world = world' := (Prod.mk.inj h).2
    refine ⟨?_, by simpa using hle, fun _ _ => rfl, fun j asset hasset => ?_⟩
    · simp [harena]
    · simp at hasset
  | cons asset assets ih =>
    rw [copyLoop] at h
    split_ifs at h with hstop
    case pos => exact absurd (congrArg Prod.fst h) Bool.false_ne_true
    rw [not_or, not_or, not_or, not_or] at hstop
    obtain ⟨hpointer, -, hvalid, -, hroom⟩ := hstop
    rw [Bool.not_eq_true', Bool.not_eq_false, compressedChunkFrameValid_iff] at hvalid
    have hlen : asset.bytes.length = asset.compressedLen.toNat :=
      McWorldCompressedAsset.length_bytes hpointer
    rw [← hlen] at hroom
    have hdone : (done ++ asset.bytes).length = pos + asset.compressedLen.toNat := by
      rw [List.length_append, hpos, hlen]
    have hnext : copyTo world.arena pos asset.bytes =
        (done ++ asset.bytes) ++ rest.drop asset.bytes.length := by
      rw [harena, copyTo_append hpos]
    rw [List.length_cons] at hslots
    obtain ⟨hmemory, htotal, hbefore, hafter⟩ := ih h (by omega) hnext hdone (by omega)
    rw [← hlen] at htotal hafter
    refine ⟨?_, ?_, fun k hk => ?_, fun j other hother => ?_⟩
    · rw [hmemory, List.flatMap_cons, List.length_append, List.drop_drop, List.append_assoc done]
    · rw [List.flatMap_cons, List.length_append, ← Nat.add_assoc]
      exact htotal
    · rw [hbefore k (Nat.lt_succ_of_lt hk)]
      exact Vector.getElem?_setIfInBounds_ne (Nat.ne_of_gt hk)
    · cases j with
      | zero =>
        obtain rfl : asset = other := Option.some.inj hother
        refine ⟨⟨hpointer, hvalid⟩, ?_⟩
        rw [Nat.add_zero, hbefore i (Nat.lt_succ_self i)]
        exact Vector.getElem?_setIfInBounds_self_of_lt (by omega)
      | succ j =>
        obtain ⟨haccepted, hslot⟩ := hafter j other hother
        refine ⟨haccepted, ?_⟩
        have hindex : i + (j + 1) = i + 1 + j := by omega
        rw [hindex, List.take_succ_cons, List.flatMap_cons, List.length_append,
          ← Nat.add_assoc pos]
        exact hslot

/-- After a successful initialisation the chunks lie one behind the other in the arena, as the
assets lie in the table. -/
structure HoldsAssets (world : World) (arenaLen : ℕ) (assets : List McWorldCompressedAsset)
    (start : ℕ → ℕ) : Prop where
  ready : world.runtimeReady = true
  count : world.runtimeChunkCount = assets.length
  accepted : ∀ (i : ℕ) asset, assets[i]? = some asset → Accepted asset
  slot : ∀ (i : ℕ) asset, assets[i]? = some asset →
    world.runtimeChunks[i]? = some (runtimeChunk asset (start i))
  inside : ∀ (i : ℕ) asset, assets[i]? = some asset →
    start i + asset.compressedLen.toNat ≤ arenaLen
  disjoint : ∀ (i j : ℕ) asset, i < j → j < assets.length → assets[i]? = some asset →
    start i + asset.compressedLen.toNat ≤ start j
  bytes_eq : ∀ (i : ℕ) asset, assets[i]? = some asset →
    (world.arena.drop (start i)).take asset.compressedLen.toNat = asset.bytes

def assetStart (assets : List McWorldCompressedAsset) (i : ℕ) : ℕ :=
  ((assets.take i).flatMap (·.bytes)).length

theorem split_at {α : Type} {items : List α} {i : ℕ} {item : α} (h : items[i]? = some item) :
    items = items.take i ++ item :: items.drop (i + 1) := by
  obtain ⟨hlt, rfl⟩ := List.getElem?_eq_some_iff.mp h
  rw [List.cons_getElem_drop_succ, List.take_append_drop]

theorem assetStart_succ {assets : List McWorldCompressedAsset} {i : ℕ}
    {asset : McWorldCompressedAsset} (h : assets[i]? = some asset) :
    assetStart assets (i + 1) = assetStart assets i + asset.bytes.length := by
  obtain ⟨hlt, rfl⟩ := List.getElem?_eq_some_iff.mp h
  rw [assetStart, ← List.take_concat_get' assets i hlt, List.flatMap_append, List.length_append,
    List.flatMap_singleton, assetStart]

theorem assetStart_mono (assets : List McWorldCompressedAsset) {i j : ℕ} (hij : i ≤ j) :
    assetStart assets i ≤ assetStart assets j := by
  have hprefix : (assets.take i).flatMap (·.bytes) <+: (assets.take j).flatMap (·.bytes) := by
    obtain ⟨rest, hrest⟩ : assets.take i <+: assets.take j := List.take_prefix_take_left hij
    rw [← hrest, List.flatMap_append]
    exact List.prefix_append _ _
  exact hprefix.length_le

theorem copyLoop_keeps (arenaLen : ℕ) (world : World) (i pos : ℕ)
    (assets : List McWorldCompressedAsset) :
    (copyLoop arenaLen world i pos assets).2.runtimeReady = world.runtimeReady ∧
      (copyLoop arenaLen world i pos assets).2.runtimeChunkCount = world.runtimeChunkCount := by
  induction assets generalizing world i pos with
  | nil => exact ⟨rfl, rfl⟩
  | cons asset assets ih =>
    rw [copyLoop]
    split_ifs
    · exact ⟨rfl, rfl⟩
    · exact ih _ _ _

/-- The variables as they are when the loop starts. -/
def World.cleared (world : World) (memory : List UInt8) : World :=
  { world with arena := memory, runtimeChunkCount := 0, runtimeReady := false }

section
variable {assets : List McWorldCompressedAsset} {totalBytes : UInt32} {world : World}
  {arena : Arena}

theorem init_cases :
    (∃ memory loaded, arena.memory = some memory ∧ assets.length ≤ mcWorldCompressedMaxChunks ∧
        copyLoop arena.len (world.cleared memory) 0 0 assets = (true, loaded) ∧
        mcWorldCompressedInit assets totalBytes world arena =
          (true, { loaded with runtimeChunkCount := assets.length, runtimeReady := true })) ∨
      (mcWorldCompressedInit assets totalBytes world arena).1 = false ∧
        (mcWorldCompressedInit assets totalBytes world arena).2.runtimeReady = false ∧
        (mcWorldCompressedInit assets totalBytes world arena).2.runtimeChunkCount = 0 := by
  rw [mcWorldCompressedInit]
  cases arena.memory with
  | none => exact .inr ⟨rfl, rfl, rfl⟩
  | some memory =>
    dsimp only
    split_ifs with hcount htotal
    · exact .inr ⟨rfl, rfl, rfl⟩
    · exact .inr ⟨rfl, rfl, rfl⟩
    · obtain ⟨hready, hzero⟩ := copyLoop_keeps arena.len (world.cleared memory) 0 0 assets
      rcases hloop : copyLoop arena.len (world.cleared memory) 0 0 assets with ⟨done, loaded⟩
      rw [hloop] at hready hzero
      rw [World.cleared] at hloop
      rw [hloop]
      cases done with
      | false => exact .inr ⟨rfl, hready, hzero⟩
      | true => exact .inl ⟨memory, loaded, rfl, Nat.le_of_not_lt hcount, hloop, rfl⟩

theorem holdsAssets_init (h : (mcWorldCompressedInit assets totalBytes world arena).1 = true) :
    HoldsAssets (mcWorldCompressedInit assets totalBytes world arena).2 arena.len assets
      (assetStart assets) := by
  rcases @init_cases assets totalBytes world arena with
    ⟨memory, loaded, _, hcount, hloop, hinit⟩ | ⟨hfalse, _⟩
  case inr => exact absurd (hfalse.symm.trans h) Bool.false_ne_true
  rw [hinit]
  have hslots : 0 + assets.length ≤ mcWorldCompressedMaxChunks := by rwa [Nat.zero_add]
  obtain ⟨hmemory, htotal, _, hchunks⟩ := copyLoop_true hloop hslots
    (List.nil_append memory).symm rfl (Nat.zero_le arena.len)
  have hlen : ∀ (i : ℕ) asset, assets[i]? = some asset →
      asset.bytes.length = asset.compressedLen.toNat := fun i asset hasset =>
    McWorldCompressedAsset.length_bytes (hchunks i asset hasset).1.pointer
  refine ⟨rfl, rfl, fun i asset hasset => (hchunks i asset hasset).1, fun i asset hasset => ?_,
    fun i asset hasset => ?_, fun i j asset hij hj hasset => ?_, fun i asset hasset => ?_⟩
  · have hslot := (hchunks i asset hasset).2
    rwa [Nat.zero_add, Nat.zero_add] at hslot
  · have htable := congrArg (fun items => (items.flatMap (·.bytes)).length) (split_at hasset)
    simp only [List.flatMap_append, List.flatMap_cons, List.length_append] at htable
    rw [← hlen i asset hasset, assetStart]
    omega
  · have hfront := assetStart_succ hasset
    rw [← hlen i asset hasset, ← hfront]
    exact assetStart_mono assets hij
  · show (loaded.arena.drop (assetStart assets i)).take asset.compressedLen.toNat = asset.bytes
    have hfront : assets.flatMap (·.bytes) = (assets.take i).flatMap (·.bytes) ++
        (asset.bytes ++ (assets.drop (i + 1)).flatMap (·.bytes)) := by
      conv_lhs => rw [split_at hasset]
      rw [List.flatMap_append, List.flatMap_cons]
    rw [hmemory, List.nil_append, hfront, List.append_assoc, assetStart, List.drop_left,
      List.append_assoc, ← hlen i asset hasset, List.take_left]

end

theorem queue_not_ready {world : World} (h : world.runtimeReady = false) (tx : TxRing)
    (index : ℕ) : mcWorldQueueCompressedSpawnChunk world tx index = (false, tx) := by
  rw [mcWorldQueueCompressedSpawnChunk, mcWorldCompressedChunk, if_pos (by simp [h])]

theorem queue_holdsAssets {arenaLen : ℕ} {assets : List McWorldCompressedAsset} {world : World}
    {start : ℕ → ℕ} (h : HoldsAssets world arenaLen assets start) {index : ℕ}
    {asset : McWorldCompressedAsset} (hasset : assets[index]? = some asset) (tx : TxRing) :
    mcWorldQueueCompressedSpawnChunk world tx index =
      if tx.free < (compressedFrame asset.rawBodyLen.toInt32 asset.bytes).length then (false, tx)
      else (true, tx.push (compressedFrame asset.rawBodyLen.toInt32 asset.bytes)) := by
  have hindex : index < assets.length := (List.getElem?_eq_some_iff.mp hasset).1
  obtain ⟨hpointer, hfits⟩ := h.accepted index asset hasset
  have hlen : asset.bytes.length = asset.compressedLen.toNat :=
    McWorldCompressedAsset.length_bytes hpointer
  have hchunk : mcWorldCompressedChunk world index = some (runtimeChunk asset (start index)) := by
    have hready : ¬((!world.runtimeReady) = true ∨ index ≥ world.runtimeChunkCount) := by
      rw [h.ready, h.count]
      simpa using hindex
    rw [mcWorldCompressedChunk, if_neg hready, h.slot index asset hasset]
  have hpayload : world.payload (runtimeChunk asset (start index)) = asset.bytes :=
    h.bytes_eq index asset hasset
  have hvalid : compressedChunkFrameValid asset.rawBodyLen asset.compressedLen = true :=
    (compressedChunkFrameValid_iff _ _).mpr hfits
  have hint : ¬asset.compressedLen.toNat >
      int32Max - (varintBytes asset.rawBodyLen.toInt32).length := by
    have := hfits.inner_le
    have := length_varintBytes_le asset.rawBodyLen.toInt32
    have hmax : mcMaxPacketBody = 32768 := rfl
    have hmaxInt : int32Max = 2147483647 := rfl
    omega
  have hpieces : [varintBytes (Int32.ofNat ((varintBytes asset.rawBodyLen.toInt32).length +
      asset.compressedLen.toNat)), varintBytes asset.rawBodyLen.toInt32, asset.bytes].flatten =
        compressedFrame asset.rawBodyLen.toInt32 asset.bytes := by
    simp only [compressedFrame, plainFrame, List.flatten_cons, List.flatten_nil,
      List.append_nil, List.length_append, hlen]
  have hlength : (compressedFrame asset.rawBodyLen.toInt32 asset.bytes).length =
      (varintBytes (Int32.ofNat ((varintBytes asset.rawBodyLen.toInt32).length +
        asset.compressedLen.toNat))).length +
        ((varintBytes asset.rawBodyLen.toInt32).length + asset.compressedLen.toNat) := by
    rw [← hpieces]
    simp only [List.flatten_cons, List.flatten_nil, List.append_nil, List.length_append, hlen]
  rw [mcWorldQueueCompressedSpawnChunk, hchunk]
  show (if !compressedChunkFrameValid asset.rawBodyLen asset.compressedLen then (false, tx)
    else _) = _
  rw [hvalid, if_neg (by decide)]
  simp only [runtimeChunk, mcVarintEncode_eq]
  rw [if_neg hint]
  by_cases hspace : tx.free < (compressedFrame asset.rawBodyLen.toInt32 asset.bytes).length
  · rw [if_pos hspace]
    exact if_pos (hlength ▸ hspace)
  · rw [if_neg hspace]
    refine (if_neg (hlength ▸ hspace)).trans ?_
    have hroom := Nat.le_of_not_lt hspace
    rw [← hpieces] at hroom ⊢
    rw [← TxRing.writeAll_of_le hroom]
    exact congrArg (fun payload => tx.writeAll [_, _, payload]) hpayload

theorem readsCompressed_asset {asset : McWorldCompressedAsset} (h : Accepted asset) :
    ReadsCompressed asset.rawBodyLen.toInt32 asset.bytes
      (compressedFrame asset.rawBodyLen.toInt32 asset.bytes) := by
  obtain ⟨hpointer, hfits⟩ := h
  have hlen : asset.bytes.length = asset.compressedLen.toNat :=
    McWorldCompressedAsset.length_bytes hpointer
  have hmax : mcMaxPacketBody = 32768 := rfl
  have hsmall : asset.rawBodyLen.toNat < 2 ^ 31 := by
    have := hfits.raw_le
    omega
  have hnonneg : 0 ≤ asset.rawBodyLen.toInt32 := by
    rw [toInt32_eq_ofNat]
    exact Int32.not_lt.mp (ofNat_nonneg hsmall)
  have hlimit : asset.rawBodyLen.toInt32.toNatClampNeg ≤ mcMaxPacketBody := by
    rw [toInt32_eq_ofNat, Int32.toNatClampNeg_ofNat_of_lt hsmall]
    exact hfits.raw_le
  have hinner := hfits.inner_le
  rw [← hlen] at hinner
  exact (readsCompressed_compressedFrame_iff hnonneg hlimit
    ((Nat.le_add_left _ _).trans hinner)).mpr hinner

/-! The chunks of the server's model are these ones without the memory they lie in. -/

def McWorldCompressedAsset.chunk (asset : McWorldCompressedAsset) : McWorldCompressedChunk where
  chunkX := asset.chunkX
  chunkZ := asset.chunkZ
  rawBodyLen := asset.rawBodyLen
  compressed := asset.bytes

theorem frameValid_chunk {asset : McWorldCompressedAsset} (h : asset.compressed ≠ none) :
    Core.compressedChunkFrameValid asset.chunk.rawBodyLen asset.chunk.compressed.length =
      compressedChunkFrameValid asset.rawBodyLen asset.compressedLen := by
  have hlen : asset.chunk.compressed.length = asset.compressedLen.toNat :=
    McWorldCompressedAsset.length_bytes h
  have hzero : asset.compressedLen = 0 ↔ asset.compressedLen.toNat = 0 := UInt32.toNat_inj.symm
  have hvarint := length_varintBytes_le asset.rawBodyLen.toInt32
  have hmax : mcMaxPacketBody = 32768 := rfl
  have hint : int32Max = 2147483647 := rfl
  rw [Core.compressedChunkFrameValid, compressedChunkFrameValid, hlen]
  simp only [McWorldCompressedAsset.chunk, hzero, mcVarintEncode_eq, Option.isNone_some,
    Option.isSome_some, Bool.false_eq_true, or_false, hint]
  split_ifs <;> first | rfl | omega

theorem fst_copyLoop (arenaLen : ℕ) (world : World) (i pos : ℕ)
    {assets : List McWorldCompressedAsset} (hpointers : ∀ asset ∈ assets, asset.compressed ≠ none) :
    (copyLoop arenaLen world i pos assets).1 =
      (copyAssets arenaLen pos (assets.map (·.chunk))).isSome := by
  induction assets generalizing world i pos with
  | nil => rfl
  | cons asset assets ih =>
    have hpointer := hpointers asset List.mem_cons_self
    have hlen : asset.chunk.compressed.length = asset.compressedLen.toNat :=
      McWorldCompressedAsset.length_bytes hpointer
    have hzero : asset.compressedLen = 0 →
        compressedChunkFrameValid asset.rawBodyLen asset.compressedLen = false := by
      intro hzero
      rw [compressedChunkFrameValid, if_pos (.inr (.inr (.inl hzero)))]
    rw [List.map_cons, copyLoop, copyAssets, frameValid_chunk hpointer, hlen]
    by_cases hvalid : compressedChunkFrameValid asset.rawBodyLen asset.compressedLen = true
    · have hpos : asset.compressedLen ≠ 0 := fun h => by
        rw [hzero h] at hvalid
        exact Bool.false_ne_true hvalid
      simp only [hpointer, hpos, hvalid, Bool.not_true, Bool.false_eq_true, false_or]
      split_ifs
      · rfl
      · rw [Option.isSome_map]
        exact ih _ _ _ (fun other hother => hpointers other (List.mem_cons_of_mem _ hother))
    · rw [Bool.not_eq_true] at hvalid
      simp only [hvalid, Bool.not_false, true_or, or_true, if_true, Option.isSome_none]

theorem fst_init {assets : List McWorldCompressedAsset} (totalBytes : UInt32) (world : World)
    {arena : Arena} (hmemory : arena.memory ≠ none)
    (hpointers : ∀ asset ∈ assets, asset.compressed ≠ none) :
    (mcWorldCompressedInit assets totalBytes world arena).1 =
      (Core.mcWorldCompressedInit (assets.map (·.chunk)) totalBytes.toNat arena.len).isSome := by
  obtain ⟨memory, hsome⟩ := Option.ne_none_iff_exists'.mp hmemory
  have hloop := fst_copyLoop arena.len (world.cleared memory) 0 0 hpointers
  rw [mcWorldCompressedInit, Core.mcWorldCompressedInit, hsome, List.length_map]
  dsimp only
  split_ifs
  · rfl
  · rfl
  · rw [← hloop]
    rcases hresult : copyLoop arena.len (world.cleared memory) 0 0 assets with ⟨done, loaded⟩
    rw [World.cleared] at hresult
    rw [hresult]
    cases done <;> rfl

theorem queue_model {cfg : McConfig} {index : ℕ} {chunk : McWorldCompressedChunk}
    (hchunk : Core.mcWorldCompressedChunk cfg index = some chunk)
    (hvalid : Core.compressedChunkFrameValid chunk.rawBodyLen chunk.compressed.length = true)
    (tx : TxRing) :
    Core.mcWorldQueueCompressedSpawnChunk cfg tx index =
      if tx.free < (compressedFrame chunk.rawBodyLen.toInt32 chunk.compressed).length then
        (false, tx)
      else (true, tx.push (compressedFrame chunk.rawBodyLen.toInt32 chunk.compressed)) := by
  have hpieces : [varintBytes (Int32.ofNat ((varintBytes chunk.rawBodyLen.toInt32).length +
      chunk.compressed.length)), varintBytes chunk.rawBodyLen.toInt32, chunk.compressed].flatten =
        compressedFrame chunk.rawBodyLen.toInt32 chunk.compressed := by
    simp only [compressedFrame, plainFrame, List.flatten_cons, List.flatten_nil,
      List.append_nil, List.length_append]
  rw [Core.mcWorldQueueCompressedSpawnChunk, hchunk]
  simp only [hvalid, mcVarintEncode_eq, Bool.not_true, Bool.false_eq_true, if_false]
  rw [← hpieces]
  simp only [List.flatten_cons, List.flatten_nil, List.append_nil, List.length_append]
  split_ifs with hspace
  · rfl
  · rw [TxRing.writeAll_of_le]
    · simp only [List.flatten_cons, List.flatten_nil, List.append_nil]
    · simp only [List.flatten_cons, List.flatten_nil, List.append_nil, List.length_append]
      exact Nat.le_of_not_lt hspace

/-- The server's model sends what the code sends, whether the initialisation went well or not. -/
theorem queue_eq_model {assets : List McWorldCompressedAsset} {totalBytes : UInt32}
    {arena : Arena} {cfg : McConfig} (hpsram : cfg.usePsramCompressedMap = true)
    (hassets : cfg.compressedAssets = assets.map (·.chunk))
    (htotal : cfg.compressedTotalBytes = totalBytes.toNat)
    (harena : cfg.compressedArenaLen = arena.len) (hmemory : arena.memory ≠ none)
    (hpointers : ∀ asset ∈ assets, asset.compressed ≠ none) (world : World) (tx : TxRing)
    (index : ℕ) :
    mcWorldQueueCompressedSpawnChunk (mcWorldCompressedInit assets totalBytes world arena).2
        tx index = Core.mcWorldQueueCompressedSpawnChunk cfg tx index := by
  have hfst := fst_init totalBytes world hmemory hpointers
  have hnone : Core.mcWorldCompressedChunk cfg index = none →
      Core.mcWorldQueueCompressedSpawnChunk cfg tx index = (false, tx) := by
    intro hchunk
    rw [Core.mcWorldQueueCompressedSpawnChunk, hchunk]
  rcases @init_cases assets totalBytes world arena with
    ⟨_, _, _, _, _, hinit⟩ | ⟨hfailed, hready, _⟩
  · have hdone : (mcWorldCompressedInit assets totalBytes world arena).1 = true :=
      congrArg Prod.fst hinit
    have hholds := holdsAssets_init hdone
    rw [hdone] at hfst
    obtain ⟨chunks, hchunks⟩ := Option.isSome_iff_exists.mp hfst.symm
    have hruntime : Core.mcWorldCompressedChunk cfg index =
        (assets[index]?).map (·.chunk) := by
      have hcopied : chunks = assets.map (·.chunk) := by
        rw [Core.mcWorldCompressedInit] at hchunks
        split_ifs at hchunks
        exact copyAssets_eq hchunks
      rw [Core.mcWorldCompressedChunk, if_pos hpsram, McConfig.runtimeChunks, hassets, htotal,
        harena, hchunks, Option.getD_some, hcopied, List.getElem?_map]
    cases hasset : assets[index]? with
    | none =>
      rw [hasset] at hruntime
      rw [hnone hruntime, mcWorldQueueCompressedSpawnChunk, mcWorldCompressedChunk, if_pos]
      rw [hholds.count]
      exact .inr (List.getElem?_eq_none_iff.mp hasset)
    | some asset =>
      rw [hasset] at hruntime
      obtain ⟨hpointer, hfits⟩ := hholds.accepted index asset hasset
      have hvalid := (compressedChunkFrameValid_iff _ _).mpr hfits
      rw [← frameValid_chunk hpointer] at hvalid
      rw [queue_holdsAssets hholds hasset tx, queue_model hruntime hvalid]
      rfl
  · rw [hfailed] at hfst
    have hruntime : Core.mcWorldCompressedChunk cfg index = none := by
      rw [Core.mcWorldCompressedChunk, if_pos hpsram, McConfig.runtimeChunks, hassets, htotal,
        harena, Option.isNone_iff_eq_none.mp (Option.isSome_eq_false_iff.mp hfst.symm)]
      rfl
    rw [queue_not_ready hready, hnone hruntime]

/-- A table is loaded whole or not at all: after a successful initialisation every chunk is in the
arena and goes out as one frame that reads back, where there is space for it; after a failed one
nothing is sent. -/
theorem mcWorldCompressed_init_queue (assets : List McWorldCompressedAsset) (totalBytes : UInt32)
    (world : World) (arena : Arena) :
    let result := mcWorldCompressedInit assets totalBytes world arena
    (result.1 = true → ∃ start, HoldsAssets result.2 arena.len assets start ∧
      ∀ index asset, assets[index]? = some asset → ∃ frame,
        ReadsCompressed asset.rawBodyLen.toInt32 asset.bytes frame ∧
        ∀ tx, (tx.free < frame.length ∧
            mcWorldQueueCompressedSpawnChunk result.2 tx index = (false, tx)) ∨
          frame.length ≤ tx.free ∧ ∃ tx',
            mcWorldQueueCompressedSpawnChunk result.2 tx index = (true, tx') ∧
              tx'.ring.items = tx.ring.items ++ frame) ∧
    (result.1 = false → result.2.runtimeReady = false ∧ result.2.runtimeChunkCount = 0 ∧
      ∀ tx index, mcWorldQueueCompressedSpawnChunk result.2 tx index = (false, tx)) := by
  intro result
  refine ⟨fun hdone => ?_, fun hfailed => ?_⟩
  · have hholds := holdsAssets_init hdone
    refine ⟨assetStart assets, hholds, fun index asset hasset => ?_⟩
    refine ⟨compressedFrame asset.rawBodyLen.toInt32 asset.bytes,
      readsCompressed_asset (hholds.accepted index asset hasset), fun tx => ?_⟩
    rw [queue_holdsAssets hholds hasset tx]
    split_ifs with hspace
    · exact .inl ⟨hspace, rfl⟩
    · have hroom := Nat.le_of_not_lt hspace
      exact .inr ⟨hroom, _, rfl, (Ringbuf.write_of_le hroom).2⟩
  · rcases @init_cases assets totalBytes world arena with
      ⟨_, _, _, _, _, hinit⟩ | ⟨_, hready, hcount⟩
    · exact absurd (hfailed.symm.trans (congrArg Prod.fst hinit)) Bool.false_ne_true
    · exact ⟨hready, hcount, queue_not_ready hready⟩

/-- Two assets, the second one longer in memory than what the table says of it. -/
def twoAssets : List McWorldCompressedAsset :=
  [{ chunkX := 0, chunkZ := 0, rawBodyLen := 12558, compressedLen := 3, compressed := some [1, 2, 3]
     stored := fun _ h => (Option.some.inj h) ▸ le_rfl },
    { chunkX := -1, chunkZ := 1, rawBodyLen := 7, compressedLen := 2, compressed := some [4, 5, 6]
      stored := fun _ h => (Option.some.inj h) ▸ Nat.le_succ 2 }]

def twoWorld : World where
  arena := []
  runtimeChunks := Vector.replicate mcWorldCompressedMaxChunks ⟨0, 0, 0, 0, none⟩
  runtimeChunkCount := 0
  runtimeReady := false

def twoArena : Arena where
  memory := some (List.replicate 8 0xff)
  len := 8
  len_le := fun _ h => (Option.some.inj h) ▸ le_rfl

theorem mcWorldCompressed_init_queue_two :
    ∃ start, HoldsAssets (mcWorldCompressedInit twoAssets 5 twoWorld twoArena).2 8 twoAssets
      start := by
  obtain ⟨start, hholds, _⟩ :=
    (mcWorldCompressed_init_queue twoAssets 5 twoWorld twoArena).1 (by decide)
  exact ⟨start, hholds⟩

end StarrySky.Core.CompressedWorld
