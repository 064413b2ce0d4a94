import StarrySky.Core.TxRing

/-! The build options of `core/include/mc_config.h` and the spawn chunks: the generated ones of
`core/src/mc_world.c` and the precompressed ones of `core/src/mc_world_compressed.c`. -/

namespace StarrySky.Core
open StarrySky.Base

structure McWorldCompressedChunk where
  chunkX : Int32
  chunkZ : Int32
  rawBodyLen : UInt32
  compressed : List UInt8
deriving DecidableEq

def compressedChunkFrameValid (rawBodyLen : UInt32) (compressedLen : ℕ) : Bool :=
  if rawBodyLen = 0 ∨ rawBodyLen.toNat > mcMaxPacketBody ∨ compressedLen = 0 ∨
      compressedLen > mcMaxPacketBody then false
  else
    match mcVarintEncode rawBodyLen.toInt32 5 with
    | none => false
    | some dataLen =>
      let innerLen := dataLen.length + compressedLen
      if innerLen > mcMaxPacketBody then false
      else (mcVarintEncode (Int32.ofNat innerLen) 5).isSome

abbrev mcWorldCompressedMaxChunks : ℕ := 32

/-- The copying loop of `mc_world_compressed_init`, from position `pos` of the arena. -/
def copyAssets (arenaLen pos : ℕ) : List McWorldCompressedChunk →
    Option (List McWorldCompressedChunk)
  | [] => some []
  | asset :: assets =>
    if !compressedChunkFrameValid asset.rawBodyLen asset.compressed.length ∨ pos > arenaLen ∨
        asset.compressed.length > arenaLen - pos then none
    else (copyAssets arenaLen (pos + asset.compressed.length) assets).map (asset :: ·)

/-- `mc_world_compressed_init`: the runtime chunks, none of them when it fails. -/
def mcWorldCompressedInit (assets : List McWorldCompressedChunk) (totalBytes arenaLen : ℕ) :
    Option (List McWorldCompressedChunk) :=
  if assets.length > mcWorldCompressedMaxChunks then none
  else if totalBytes > arenaLen then none
  else copyAssets arenaLen 0 assets

theorem copyAssets_eq {arenaLen pos : ℕ} {assets chunks : List McWorldCompressedChunk}
    (h : copyAssets arenaLen pos assets = some chunks) : chunks = assets := by
  induction assets generalizing pos chunks with
  | nil => exact (Option.some.inj h).symm
  | cons asset assets ih =>
    rw [copyAssets] at h
    split_ifs at h
    obtain ⟨rest, hrest, rfl⟩ := Option.map_eq_some_iff.mp h
    rw [ih hrest]

/-- The build options, and what the linked assets and the arena are. -/
structure McConfig where
  protocolCompressionEnable : Bool
  usePsramCompressedMap : Bool
  compressionThreshold : UInt32
  keepaliveIntervalTicks : UInt32
  compressedAssets : List McWorldCompressedChunk
  compressedTotalBytes : ℕ
  compressedArenaLen : ℕ
  psram_requires : usePsramCompressedMap = true → protocolCompressionEnable = true
  threshold_pos : 0 < compressionThreshold
  interval_pos : 0 < keepaliveIntervalTicks

/-- What `mc_world_compressed_init` left in `runtime_chunks`. -/
def McConfig.runtimeChunks (cfg : McConfig) : List McWorldCompressedChunk :=
  (mcWorldCompressedInit cfg.compressedAssets cfg.compressedTotalBytes
    cfg.compressedArenaLen).getD []

theorem runtimeChunks_cases (cfg : McConfig) :
    cfg.runtimeChunks = [] ∨ cfg.runtimeChunks = cfg.compressedAssets ∧
      cfg.compressedAssets.length ≤ mcWorldCompressedMaxChunks := by
  rw [McConfig.runtimeChunks]
  cases hinit : mcWorldCompressedInit cfg.compressedAssets cfg.compressedTotalBytes
      cfg.compressedArenaLen with
  | none => exact .inl rfl
  | some chunks =>
    rw [mcWorldCompressedInit] at hinit
    split_ifs at hinit with hcount
    exact .inr ⟨copyAssets_eq hinit, Nat.le_of_not_lt hcount⟩

def mcWorldCompressedChunkCount (cfg : McConfig) : ℕ :=
  if cfg.usePsramCompressedMap then cfg.runtimeChunks.length else 0

def mcWorldCompressedChunk (cfg : McConfig) (index : ℕ) : Option McWorldCompressedChunk :=
  if cfg.usePsramCompressedMap then cfg.runtimeChunks[index]? else none

def mcWorldQueueCompressedSpawnChunk (cfg : McConfig) (tx : TxRing) (index : ℕ) : Bool × TxRing :=
  match mcWorldCompressedChunk cfg index with
  | none => (false, tx)
  | some chunk =>
    if !compressedChunkFrameValid chunk.rawBodyLen chunk.compressed.length then (false, tx)
    else
      match mcVarintEncode chunk.rawBodyLen.toInt32 5 with
      | none => (false, tx)
      | some dataLen =>
        let innerLen := dataLen.length + chunk.compressed.length
        match mcVarintEncode (Int32.ofNat innerLen) 5 with
        | none => (false, tx)
        | some header =>
          if tx.free < header.length + innerLen then (false, tx)
          else tx.writeAll [header, dataLen, chunk.compressed]

abbrev mcWorldChunkCount : ℕ := 9
abbrev mcChunkSectionBytes : ℕ := 12544

def worldSpawnChunks : List (Int32 × Int32) :=
  [(0, 0), (1, 0), (-1, 0), (0, 1), (0, -1), (1, 1), (-1, -1), (1, -1), (-1, 1)]

def mcWorldSpawnChunkCount : ℕ := mcWorldChunkCount

def blockForY (y : ℕ) : UInt16 :=
  if y = 0 then (7 : UInt16) <<< 4
  else if y ≤ 3 then (3 : UInt16) <<< 4
  else if y = 4 then (2 : UInt16) <<< 4
  else 0

/-- `world_chunk_data`: the blocks by height, two light arrays and the biomes. -/
def worldChunkData : List UInt8 :=
  (List.range 16).flatMap (fun y =>
    (List.replicate 256 [(blockForY y).toUInt8, (blockForY y >>> 8).toUInt8]).flatten) ++
  List.replicate 2048 0xff ++ List.replicate 2048 0xff ++ List.replicate 256 1

def mcWorldBuildChunkBody (cfg : McConfig) (chunkX chunkZ : Int32) (bodyCap : ℕ) :
    Option (List UInt8) :=
  if cfg.usePsramCompressedMap then none
  else do
    let w := McWriter.init bodyCap
    let w ← w.writeVarint 0x21
    let w ← w.writeI32 chunkX
    let w ← w.writeI32 chunkZ
    let w ← w.writeBool true
    let w ← w.writeU16 0x0001
    let w ← w.writeVarint (Int32.ofNat mcChunkSectionBytes)
    let w ← w.writeBytes worldChunkData
    return w.buf

def mcWorldQueueSpawnChunk (cfg : McConfig) (tx : TxRing) (index : ℕ) : Bool × TxRing :=
  match worldSpawnChunks[index]? with
  | none => (false, tx)
  | some (chunkX, chunkZ) =>
    match mcWorldBuildChunkBody cfg chunkX chunkZ (mcChunkSectionBytes + 32) with
    | none => (false, tx)
    | some body => mcServerQueuePacket tx body

theorem mem_compressedAssets {cfg : McConfig} {index : ℕ} {chunk : McWorldCompressedChunk}
    (h : mcWorldCompressedChunk cfg index = some chunk) : chunk ∈ cfg.compressedAssets := by
  rw [mcWorldCompressedChunk] at h
  split_ifs at h
  have hruntime : chunk ∈ cfg.runtimeChunks := List.mem_of_getElem? h
  rcases runtimeChunks_cases cfg with hnil | ⟨hassets, _⟩
  · rw [hnil] at hruntime
    exact absurd hruntime List.not_mem_nil
  · rwa [hassets] at hruntime

theorem mcWorldQueueCompressedSpawnChunk_cases (cfg : McConfig) (tx : TxRing) (index : ℕ) :
    mcWorldQueueCompressedSpawnChunk cfg tx index = (false, tx) ∨
      ∃ chunk, mcWorldCompressedChunk cfg index = some chunk ∧
        AddsFrame tx (compressedFrame chunk.rawBodyLen.toInt32 chunk.compressed)
          (mcWorldQueueCompressedSpawnChunk cfg tx index) := by
  rw [mcWorldQueueCompressedSpawnChunk]
  cases hchunk : mcWorldCompressedChunk cfg index with
  | none => exact .inl rfl
  | some chunk =>
    dsimp only
    by_cases hvalid : compressedChunkFrameValid chunk.rawBodyLen chunk.compressed.length = true
    case neg =>
      rw [if_pos (by simp [hvalid])]
      exact .inl rfl
    rw [if_neg (by simp [hvalid])]
    simp only [mcVarintEncode_eq]
    rw [compressedChunkFrameValid] at hvalid
    split_ifs at hvalid with hbounds
    simp only [mcVarintEncode_eq] at hvalid
    split_ifs at hvalid with hinner
    refine .inr ⟨chunk, rfl, ?_⟩
    · have hpieces : [varintBytes (Int32.ofNat ((varintBytes chunk.rawBodyLen.toInt32).length +
          chunk.compressed.length)), varintBytes chunk.rawBodyLen.toInt32,
          chunk.compressed].flatten =
          compressedFrame chunk.rawBodyLen.toInt32 chunk.compressed := by
        simp [compressedFrame, plainFrame]
      by_cases hfits : (compressedFrame chunk.rawBodyLen.toInt32 chunk.compressed).length ≤ tx.free
      · have hinnerLen := Nat.le_of_not_lt hinner
        rw [← List.length_append] at hinnerLen
        have hbound : (compressedFrame chunk.rawBodyLen.toInt32 chunk.compressed).length ≤
            mcMaxFrame :=
          (length_plainFrame_le _).trans (Nat.add_le_add hinnerLen (by decide))
        refine .inr ⟨⟨hfits, hbound⟩, ?_⟩
        rw [if_neg, ← hpieces]
        · exact TxRing.writeAll_of_le (hpieces ▸ hfits)
        · rw [← hpieces] at hfits
          simp only [List.flatten_cons, List.length_append, List.flatten_nil] at hfits
          simp only [List.length_nil] at hfits
          omega
      · refine .inl (if_pos ?_)
        rw [← hpieces] at hfits
        simp only [List.flatten_cons, List.length_append, List.flatten_nil] at hfits
        simp only [List.length_nil] at hfits
        omega

theorem mcWorldQueueSpawnChunk_cases (cfg : McConfig) (tx : TxRing) (index : ℕ) :
    mcWorldQueueSpawnChunk cfg tx index = (false, tx) ∨
      ∃ body, mcWorldQueueSpawnChunk cfg tx index = mcServerQueuePacket tx body := by
  rw [mcWorldQueueSpawnChunk]
  cases worldSpawnChunks[index]? with
  | none => exact .inl rfl
  | some chunk =>
    obtain ⟨chunkX, chunkZ⟩ := chunk
    dsimp only
    cases mcWorldBuildChunkBody cfg chunkX chunkZ (mcChunkSectionBytes + 32) with
    | none => exact .inl rfl
    | some body => exact .inr ⟨body, rfl⟩

end StarrySky.Core
