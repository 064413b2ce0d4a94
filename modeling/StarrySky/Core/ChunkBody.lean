import StarrySky.Base.Blocks
import StarrySky.Base.Bytes
import StarrySky.Core.World
import StarrySky.Core.Writer

/-! The body that `mc_world_build_chunk_body` writes: the stores of its loops into the chunk data,
and what the writer puts in front of them. -/

namespace StarrySky.Core
open StarrySky.Base

/-- The store of one block, at the offset that the loops compute. -/
def storeBlock (data : List UInt8) (block : UInt16) (off : ℕ) : List UInt8 :=
  (data.set off block.toUInt8).set (off + 1) (block >>> 8).toUInt8

def memset (data : List UInt8) (pos : ℕ) (byte : UInt8) (len : ℕ) : List UInt8 :=
  data.take pos ++ List.replicate len byte ++ data.drop (pos + len)

/-- `world_chunk_data` as the code fills it, store by store. -/
def worldChunkStores : List UInt8 :=
  let data := List.replicate mcChunkSectionBytes (0 : UInt8)
  let data := (List.range 16).foldl (fun data y =>
    (List.range 16).foldl (fun data z =>
      (List.range 16).foldl (fun data x =>
        storeBlock data (blockForY y) (((y * 16 + z) * 16 + x) * 2)) data) data) data
  let data := memset data 8192 0xff 2048
  let data := memset data (8192 + 2048) 0xff 2048
  memset data (8192 + 2048 + 2048) 1 256

theorem storeBlock_append {done rest : List UInt8} (block : UInt16) (hrest : 2 ≤ rest.length) :
    storeBlock (done ++ rest) block done.length =
      done ++ [block.toUInt8, (block >>> 8).toUInt8] ++ rest.drop 2 := by
  match rest, hrest with
  | a :: b :: rest, _ =>
    rw [storeBlock, List.set_append_right _ _ le_rfl, Nat.sub_self, List.set_cons_zero,
      List.set_append_right _ _ (Nat.le_add_right _ _), Nat.add_sub_cancel_left,
      List.set_cons_succ, List.set_cons_zero, List.append_assoc]
    rfl

theorem memset_append {done rest : List UInt8} {pos len : ℕ} (byte : UInt8)
    (hpos : pos = done.length) :
    memset (done ++ rest) pos byte len = done ++ List.replicate len byte ++ rest.drop len := by
  rw [memset, hpos, List.take_left, List.drop_append, List.drop_of_length_le (by omega),
    Nat.add_sub_cancel_left, List.nil_append]

theorem memset_fills {done : List UInt8} {pos len total : ℕ} (byte : UInt8)
    (hpos : pos = done.length) :
    memset (done ++ List.replicate total 0) pos byte len =
      done ++ List.replicate len byte ++ List.replicate (total - len) 0 := by
  rw [memset_append byte hpos, List.drop_replicate]

/-- The blocks of one row, of one layer and of the section, two bytes each. -/
def rowBytes (block : ℕ → UInt16) : List UInt8 :=
  (List.range 16).flatMap (fun x => leBytes (block x))

def layerBytes (block : ℕ → ℕ → UInt16) : List UInt8 :=
  (List.range 16).flatMap (fun z => rowBytes (block z))

def sectionBytes (block : ℕ → ℕ → ℕ → UInt16) : List UInt8 :=
  (List.range 16).flatMap (fun y => layerBytes (block y))

theorem length_rowBytes (block : ℕ → UInt16) : (rowBytes block).length = 32 :=
  length_flatMap_range (fun x _ => length_leBytes (block x))

theorem length_layerBytes (block : ℕ → ℕ → UInt16) : (layerBytes block).length = 512 :=
  length_flatMap_range (fun z _ => length_rowBytes (block z))

theorem length_sectionBytes (block : ℕ → ℕ → ℕ → UInt16) : (sectionBytes block).length = 8192 :=
  length_flatMap_range (fun y _ => length_layerBytes (block y))

theorem getElem?_sectionBytes (block : ℕ → ℕ → ℕ → UInt16) {x y z j : ℕ} (hx : x < 16)
    (hy : y < 16) (hz : z < 16) (hj : j < 2) :
    (sectionBytes block)[((y * 16 + z) * 16 + x) * 2 + j]? = (leBytes (block y z x))[j]? := by
  have hrow : (rowBytes (block y z))[x * 2 + j]? = (leBytes (block y z x))[j]? :=
    getElem?_flatMap_range (fun x _ => length_leBytes (block y z x)) hx hj
  have hlayer : (layerBytes (block y))[z * 32 + (x * 2 + j)]? =
      (rowBytes (block y z))[x * 2 + j]? :=
    getElem?_flatMap_range (fun z _ => length_rowBytes (block y z)) hz (by omega)
  have hsection : (sectionBytes block)[y * 512 + (z * 32 + (x * 2 + j))]? =
      (layerBytes (block y))[z * 32 + (x * 2 + j)]? :=
    getElem?_flatMap_range (fun y _ => length_layerBytes (block y)) hy (by omega)
  have hoffset : ((y * 16 + z) * 16 + x) * 2 + j = y * 512 + (z * 32 + (x * 2 + j)) := by omega
  rw [hoffset, hsection, hlayer, hrow]

theorem foldlM_sectionBytes {m : Type → Type} [Monad m] [LawfulMonad m]
    {f : ℕ → ℕ → List UInt8 → ℕ → m (List UInt8)} {block : ℕ → ℕ → ℕ → UInt16}
    (hstep : ∀ y < 16, ∀ z < 16, ∀ x < 16,
      StoresBlock (f y z) (fun x => leBytes (block y z x)) ((y * 16 + z) * 16 * 2) 2 x)
    {rest : List UInt8} (hrest : 8192 ≤ rest.length) :
    (List.range 16).foldlM (fun data y => (List.range 16).foldlM (fun data z =>
        (List.range 16).foldlM (f y z) data) data) rest =
      pure (sectionBytes block ++ rest.drop 8192) := by
  -- Three nested loops that store each block at the offset of its place fill the section.
  have hrow : ∀ y < 16, ∀ z < 16, StoresBlock (fun data z => (List.range 16).foldlM (f y z) data)
      (fun z => rowBytes (block y z)) (y * 512) 32 z := by
    intro y hy z hz done rest hdone hroom
    exact foldlM_storesBlock (fun x _ => length_leBytes (block y z x)) (hstep y hy z hz)
      (by omega) hroom
  have hlayer : ∀ y < 16, StoresBlock (fun data y => (List.range 16).foldlM (fun data z =>
      (List.range 16).foldlM (f y z) data) data) (fun y => layerBytes (block y)) 0 512 y := by
    intro y hy done rest hdone hroom
    exact foldlM_storesBlock (fun z _ => length_rowBytes (block y z)) (hrow y hy)
      (hdone.trans (Nat.zero_add _)) hroom
  have hnone : ([] : List UInt8).length = 0 := rfl
  have hsection := foldlM_storesBlock (fun y _ => length_layerBytes (block y)) hlayer hnone hrest
  rwa [List.nil_append, List.nil_append] at hsection

/-- Chunk data: the blocks of the section, the two light arrays and the biomes. -/
def chunkDataBytes (block : ℕ → ℕ → ℕ → UInt16) : List UInt8 :=
  sectionBytes block ++ List.replicate 2048 0xff ++ List.replicate 2048 0xff ++
    List.replicate 256 1

theorem length_chunkDataBytes (block : ℕ → ℕ → ℕ → UInt16) :
    (chunkDataBytes block).length = mcChunkSectionBytes := by
  simp only [chunkDataBytes, List.length_append, length_sectionBytes, List.length_replicate]

theorem memset_chunkDataBytes (block : ℕ → ℕ → ℕ → UInt16) :
    memset (memset (memset (sectionBytes block ++ List.replicate 4352 0) 8192 0xff 2048)
      (8192 + 2048) 0xff 2048) (8192 + 2048 + 2048) 1 256 = chunkDataBytes block := by
  have hlen := length_sectionBytes block
  rw [memset_fills _ hlen.symm, memset_fills, memset_fills]
  · rw [chunkDataBytes]
    exact List.append_nil _
  · simp only [List.length_append, hlen, List.length_replicate]
  · simp only [List.length_append, hlen, List.length_replicate]

theorem worldChunkStores_eq : worldChunkStores = chunkDataBytes (fun y _ _ => blockForY y) := by
  have hstep : ∀ y < 16, ∀ z < 16, ∀ x < 16,
      StoresBlock (fun data x =>
          (pure (storeBlock data (blockForY y) (((y * 16 + z) * 16 + x) * 2)) : Id (List UInt8)))
        (fun _ => leBytes (blockForY y)) ((y * 16 + z) * 16 * 2) 2 x := by
    intro y _ z _ x _ done rest hdone hrest
    have hoffset : ((y * 16 + z) * 16 + x) * 2 = done.length := by omega
    beta_reduce
    rw [hoffset, storeBlock_append _ hrest]
    rfl
  have hlen : 8192 ≤ (List.replicate mcChunkSectionBytes (0 : UInt8)).length := by
    rw [List.length_replicate]
    decide
  have hloops := foldlM_sectionBytes hstep hlen
  simp only [List.foldlM_pure, List.drop_replicate] at hloops
  have hfill := congrArg (fun data => memset (memset (memset (Id.run data) 8192 0xff 2048)
    (8192 + 2048) 0xff 2048) (8192 + 2048 + 2048) 1 256) hloops
  exact hfill.trans (memset_chunkDataBytes _)

theorem worldChunkData_eq : worldChunkData = chunkDataBytes (fun y _ _ => blockForY y) := by
  have hlayer : ∀ block : UInt16,
      (List.replicate 256 [block.toUInt8, (block >>> 8).toUInt8]).flatten =
        layerBytes (fun _ _ => block) := by
    intro block
    have hrow : rowBytes (fun _ => block) = (List.replicate 16 (leBytes block)).flatten :=
      flatMap_range_const (leBytes block) 16
    have hrows : List.replicate 16 (List.replicate 16 (leBytes block)).flatten =
        (List.replicate 16 (List.replicate 16 (leBytes block))).map List.flatten :=
      List.map_replicate.symm
    rw [layerBytes, hrow, flatMap_range_const, hrows, ← List.flatten_flatten,
      List.flatten_replicate_replicate]
    rfl
  rw [worldChunkData, chunkDataBytes, sectionBytes]
  simp only [hlayer]

namespace McWriter

/-- A writer step that puts `bytes` behind what is there, if they fit. -/
def Appends (bytes : List UInt8) (f : McWriter → Option McWriter) : Prop :=
  ∀ w : McWriter, f w =
    if w.buf.length + bytes.length ≤ w.cap then some { w with buf := w.buf ++ bytes } else none

theorem Appends.bind {a b : List UInt8} {f g : McWriter → Option McWriter} (hf : Appends a f)
    (hg : Appends b g) : Appends (a ++ b) (fun w => (f w).bind g) := by
  intro w
  rw [List.length_append]
  beta_reduce
  rw [hf w]
  by_cases ha : w.buf.length + a.length ≤ w.cap
  · rw [if_pos ha, Option.bind_some, hg, List.length_append, Nat.add_assoc, List.append_assoc]
  · rw [if_neg ha, Option.bind_none, if_neg (by omega)]

theorem hasSpace_iff (w : McWriter) (len : ℕ) :
    w.hasSpace len = true ↔ w.buf.length + len ≤ w.cap := by
  rw [hasSpace, decide_eq_true_eq]
  omega

theorem appends_writeBytes (src : List UInt8) : Appends src (fun w => w.writeBytes src) := by
  intro w
  by_cases hfits : w.buf.length + src.length ≤ w.cap
  · rw [if_pos hfits]
    exact writeBytes_of_le hfits
  · rw [if_neg hfits]
    apply if_neg
    rw [hasSpace_iff]
    exact hfits

theorem appends_writeVarint (value : Int32) :
    Appends (varintBytes value) (fun w => w.writeVarint value) := by
  intro w
  show (mcVarintEncode value 5).bind w.writeBytes = _
  rw [mcVarintEncode_eq, Option.bind_some]
  exact appends_writeBytes (varintBytes value) w

theorem appends_foldlM {σ : Type} (byte : σ → UInt8) (shifts : List σ) :
    Appends (shifts.map byte) (fun w =>
      if w.hasSpace shifts.length then shifts.foldlM (fun w shift => w.writeU8 (byte shift)) w
      else none) := by
  have hloop : ∀ w : McWriter, w.buf.length + shifts.length ≤ w.cap →
      shifts.foldlM (fun w shift => w.writeU8 (byte shift)) w =
        some { w with buf := w.buf ++ shifts.map byte } := by
    induction shifts with
    | nil =>
      intro w _
      rw [List.map_nil, List.append_nil]
      rfl
    | cons shift shifts ih =>
      intro w hw
      rw [List.length_cons] at hw
      have hbyte : w.writeU8 (byte shift) = some { w with buf := w.buf ++ [byte shift] } :=
        writeBytes_of_le (show w.buf.length + 1 ≤ w.cap by omega)
      have hrest : (w.buf ++ [byte shift]).length + shifts.length ≤ w.cap := by
        rw [List.length_append, List.length_singleton]
        omega
      rw [List.foldlM_cons, hbyte, Option.bind_eq_bind, Option.bind_some, ih _ hrest,
        List.append_assoc, List.map_cons, List.singleton_append]
  intro w
  beta_reduce
  rw [List.length_map]
  by_cases hspace : w.buf.length + shifts.length ≤ w.cap
  · rw [if_pos ((hasSpace_iff w _).mpr hspace), if_pos hspace]
    exact hloop w hspace
  · rw [if_neg hspace, if_neg]
    rwa [hasSpace_iff]

/-- The bytes of a value from the highest one down. -/
def bigEndian16 (value : UInt16) : List UInt8 := [(value >>> 8).toUInt8, (value >>> 0).toUInt8]

def bigEndian32 (value : UInt32) : List UInt8 :=
  [(value >>> 24).toUInt8, (value >>> 16).toUInt8, (value >>> 8).toUInt8, (value >>> 0).toUInt8]

theorem appends_writeU16 (value : UInt16) :
    Appends (bigEndian16 value) (fun w => w.writeU16 value) :=
  appends_foldlM (fun shift : UInt16 => (value >>> shift).toUInt8) [8, 0]

theorem appends_writeI32 (value : Int32) :
    Appends (bigEndian32 value.toUInt32) (fun w => w.writeI32 value) :=
  appends_foldlM (fun shift : UInt32 => (value.toUInt32 >>> shift).toUInt8) [24, 16, 8, 0]

end McWriter

open McWriter

def chunkHeader (chunkX chunkZ : Int32) : List UInt8 :=
  varintBytes 0x21 ++ bigEndian32 chunkX.toUInt32 ++
    bigEndian32 chunkZ.toUInt32 ++ [1] ++ bigEndian16 1 ++ varintBytes 12544

theorem length_chunkHeader (chunkX chunkZ : Int32) : (chunkHeader chunkX chunkZ).length = 14 := rfl

theorem mcWorldBuildChunkBody_eq {cfg : McConfig} (hcfg : cfg.usePsramCompressedMap = false)
    (chunkX chunkZ : Int32) (bodyCap : ℕ) :
    mcWorldBuildChunkBody cfg chunkX chunkZ bodyCap =
      if 12558 ≤ bodyCap then
        some (chunkHeader chunkX chunkZ ++ chunkDataBytes (fun y _ _ => blockForY y))
      else none := by
  have hwrites := (appends_writeVarint 0x21).bind ((appends_writeI32 chunkX).bind
    ((appends_writeI32 chunkZ).bind ((appends_writeBytes [1]).bind ((appends_writeU16 1).bind
    ((appends_writeVarint (Int32.ofNat mcChunkSectionBytes)).bind
      (appends_writeBytes worldChunkData)))))) (McWriter.init bodyCap)
  have hbytes : varintBytes 0x21 ++ (bigEndian32 chunkX.toUInt32 ++ (bigEndian32 chunkZ.toUInt32 ++
      ([1] ++ (bigEndian16 1 ++ (varintBytes (Int32.ofNat mcChunkSectionBytes) ++
        worldChunkData))))) =
      chunkHeader chunkX chunkZ ++ chunkDataBytes (fun y _ _ => blockForY y) := by
    rw [worldChunkData_eq, chunkHeader]
    simp only [List.append_assoc]
    rfl
  have hlength : (chunkHeader chunkX chunkZ ++
      chunkDataBytes (fun y _ _ => blockForY y)).length = 12558 := by
    rw [List.length_append, length_chunkDataBytes, length_chunkHeader]
    rfl
  rw [hbytes, hlength] at hwrites
  have hbody := congrArg (fun w => w.bind (fun w => some w.buf)) hwrites
  simp only [Option.bind_assoc] at hbody
  rw [mcWorldBuildChunkBody, if_neg (by rw [hcfg]; exact Bool.false_ne_true)]
  refine hbody.trans ?_
  have hcap : ([] : List UInt8).length + 12558 ≤ bodyCap ↔ 12558 ≤ bodyCap := by
    rw [List.length_nil, Nat.zero_add]
  by_cases hfits : 12558 ≤ bodyCap
  · rw [if_pos hfits, McWriter.init]
    exact congrArg (Option.bind · _) (if_pos (hcap.mpr hfits))
  · rw [if_neg hfits, McWriter.init]
    exact congrArg (Option.bind · _) (if_neg (mt hcap.mp hfits))

end StarrySky.Core
