import StarrySky.Core.ChatAccepted
import StarrySky.Core.ChunkBody
import StarrySky.Core.CompressedWorld
import StarrySky.Core.PlaySession

/-! A tick sends the packet that is due when the ring has room for its frame. -/

namespace StarrySky.Core
open StarrySky.Base

variable {cfg : McConfig} {server : McServer} {tx : TxRing} {frame : List UInt8}

/-- A builder that makes a body, and one that can be sent. -/
def Builds (body : Option McWriter) : Prop :=
  ∃ w, body = some w ∧ w.buf.length ≤ mcMaxPacketBody

theorem builds_of_adds {bodyCap n : ℕ} {body : Option McWriter}
    (h : Adds n (McWriter.init bodyCap) body) (hn : n ≤ mcMaxPacketBody) : Builds body := by
  obtain ⟨w, hw, _, hsize⟩ := h
  have hempty : (McWriter.init bodyCap).buf.length = 0 := rfl
  have hsize : w.buf.length ≤ (McWriter.init bodyCap).buf.length + n := hsize
  exact ⟨w, hw, by omega⟩

theorem builds_keepaliveBody (id : Int32) : Builds (keepaliveBody id) := by
  have hcap : (McWriter.init 16).cap = 16 := rfl
  have hempty : (McWriter.init 16).buf.length = 0 := rfl
  have hadds : Adds 10 (McWriter.init 16) (keepaliveBody id) := by
    apply (McWriter.writeVarint_adds 0x00 (by omega)).bind
    intro w (hcapW : w.cap = (McWriter.init 16).cap)
      (hsize : w.buf.length ≤ (McWriter.init 16).buf.length + 5)
    exact (McWriter.writeVarint_adds id (w := w) (by omega)).trans hcapW hsize
  exact builds_of_adds hadds (by decide)

theorem queueBuilt_of_le {body : Option McWriter} (hbody : Builds body)
    (hframe : (body.map fun w => autoFrame cfg server w.buf) = some frame)
    (hroom : frame.length ≤ tx.free) :
    queueBuilt tx body (queuePacketAuto cfg server) = (true, tx.push frame) := by
  obtain ⟨w, rfl, hlength⟩ := hbody
  obtain rfl := Option.some.inj hframe
  rw [queueBuilt, queuePacketAuto_eq, if_pos ⟨hlength, hroom⟩]

theorem length_mcWorldBuildChunkBody {chunkX chunkZ : Int32} {bodyCap : ℕ} {body : List UInt8}
    (h : mcWorldBuildChunkBody cfg chunkX chunkZ bodyCap = some body) : body.length = 12558 := by
  cases hmap : cfg.usePsramCompressedMap with
  | true =>
    rw [mcWorldBuildChunkBody, if_pos hmap] at h
    contradiction
  | false =>
    rw [mcWorldBuildChunkBody_eq hmap] at h
    split_ifs at h
    obtain rfl := Option.some.inj h
    rw [List.length_append, length_chunkHeader, length_chunkDataBytes]
    rfl

theorem frameValid_of_copyAssets {arenaLen pos : ℕ} {assets chunks : List McWorldCompressedChunk}
    (h : copyAssets arenaLen pos assets = some chunks) :
    ∀ chunk ∈ assets, compressedChunkFrameValid chunk.rawBodyLen chunk.compressed.length = true := by
  induction assets generalizing pos chunks with
  | nil => exact fun _ hmem => absurd hmem List.not_mem_nil
  | cons asset assets ih =>
    rw [copyAssets] at h
    split_ifs at h with hrefused
    obtain ⟨rest, hrest, rfl⟩ := Option.map_eq_some_iff.mp h
    have hvalid : compressedChunkFrameValid asset.rawBodyLen asset.compressed.length = true := by
      by_contra hinvalid
      exact hrefused (.inl (by simp [hinvalid]))
    exact List.forall_mem_cons.mpr ⟨hvalid, ih hrest⟩

theorem frameValid_of_mcWorldCompressedChunk {index : ℕ} {chunk : McWorldCompressedChunk}
    (h : mcWorldCompressedChunk cfg index = some chunk) :
    compressedChunkFrameValid chunk.rawBodyLen chunk.compressed.length = true := by
  have hmem := mem_compressedAssets h
  rw [mcWorldCompressedChunk] at h
  split_ifs at h
  cases hinit : mcWorldCompressedInit cfg.compressedAssets cfg.compressedTotalBytes
      cfg.compressedArenaLen with
  | none => simp [McConfig.runtimeChunks, hinit] at h
  | some chunks =>
    rw [mcWorldCompressedInit] at hinit
    split_ifs at hinit
    exact frameValid_of_copyAssets hinit chunk hmem

theorem queueBootstrapChunk_of_le
    (hframe : chunkFrame cfg server server.playBootstrapChunkIndex = some frame)
    (hroom : frame.length ≤ tx.free) :
    queueBootstrapChunk cfg server tx = (true, tx.push frame) := by
  rw [chunkFrame] at hframe
  rw [queueBootstrapChunk]
  by_cases hpsram : cfg.usePsramCompressedMap ∧ server.compressionEnabled
  · rw [if_pos hpsram] at hframe
    obtain ⟨chunk, hchunk, rfl⟩ := Option.map_eq_some_iff.mp hframe
    have hvalid := frameValid_of_mcWorldCompressedChunk hchunk
    rw [if_pos ⟨cfg.psram_requires hpsram.1, hpsram.1⟩, if_pos hpsram.2,
      CompressedWorld.queue_model hchunk hvalid, if_neg (Nat.not_lt.mpr hroom)]
  · rw [if_neg hpsram] at hframe
    obtain ⟨chunk, hchunk, hframe⟩ := Option.bind_eq_some_iff.mp hframe
    obtain ⟨body, hbody, rfl⟩ := Option.map_eq_some_iff.mp hframe
    have hlength : body.length ≤ mcMaxPacketBody :=
      (length_mcWorldBuildChunkBody hbody).trans_le (by decide)
    have hplain : ¬(cfg.protocolCompressionEnable ∧ server.compressionEnabled) →
        mcWorldQueueSpawnChunk cfg tx server.playBootstrapChunkIndex =
          (true, tx.push (autoFrame cfg server body)) := by
      intro hmode
      rw [autoFrame, if_neg hmode] at hroom ⊢
      rw [mcWorldQueueSpawnChunk, hchunk]
      dsimp only
      rw [hbody]
      dsimp only
      rw [mcServerQueuePacket_eq, if_pos ⟨hlength, hroom⟩]
    split_ifs with hmap henabled hcompress
    · exact absurd ⟨hmap.2, henabled⟩ hpsram
    · exact hplain fun h => henabled h.2
    · rw [queueSpawnChunkAuto]
      by_cases henabled : server.compressionEnabled = true
      · have hindex : server.playBootstrapChunkIndex < mcWorldSpawnChunkCount :=
          (List.getElem?_eq_some_iff.mp hchunk).1
        rw [if_neg (by simp [henabled]), if_neg (Nat.not_le.mpr hindex), hchunk]
        dsimp only
        rw [hbody]
        dsimp only
        rw [queuePacketAuto_eq, if_pos ⟨hlength, hroom⟩]
      · rw [if_pos (by simp [henabled])]
        exact hplain fun h => henabled h.2
    · exact hplain fun h => hcompress h.1

theorem queueBootstrapStage_of_le (hstage : server.playBootstrapStage < mcBootstrapDone)
    (hframe : (bootstrapPacket server).frame cfg server = some frame)
    (hroom : frame.length ≤ tx.free) :
    queueBootstrapStage cfg server tx = (true, tx.push frame) := by
  have hcases : server.playBootstrapStage = 0 ∨ server.playBootstrapStage = 1 ∨
      server.playBootstrapStage = 2 ∨ server.playBootstrapStage = 3 ∨
      server.playBootstrapStage = 4 ∨ server.playBootstrapStage = 5 ∨
      server.playBootstrapStage = 6 := by
    have hlt : server.playBootstrapStage < 7 := hstage
    omega
  rcases hcases with h | h | h | h | h | h | h
  · have hpacket : bootstrapPacket server = .joinGame := by
      rw [bootstrapPacket, h]
      rfl
    have hqueue : queueBootstrapStage cfg server tx = queueJoinGame cfg server tx := by
      rw [queueBootstrapStage, h]
      rfl
    rw [hpacket, TickPacket.frame] at hframe
    rw [hqueue, queueJoinGame]
    exact queueBuilt_of_le ⟨_, rfl, by decide⟩ hframe hroom
  · have hpacket : bootstrapPacket server = .spawnPosition := by
      rw [bootstrapPacket, h]
      rfl
    have hqueue : queueBootstrapStage cfg server tx = queueSpawnPosition cfg server tx := by
      rw [queueBootstrapStage, h]
      rfl
    rw [hpacket, TickPacket.frame] at hframe
    rw [hqueue, queueSpawnPosition]
    exact queueBuilt_of_le ⟨_, rfl, by decide⟩ hframe hroom
  · have hpacket : bootstrapPacket server = .timeUpdate server.worldTime := by
      rw [bootstrapPacket, h]
      rfl
    have hqueue : queueBootstrapStage cfg server tx = queueTime cfg server tx := by
      rw [queueBootstrapStage, h]
      rfl
    rw [hpacket, TickPacket.frame] at hframe
    rw [hqueue, queueTime, queueTimeValue]
    exact queueBuilt_of_le (builds_of_adds (buildTimeBody_adds (by decide) _) (by decide)) hframe hroom
  · have hpacket : bootstrapPacket server = .updateHealth := by
      rw [bootstrapPacket, h]
      rfl
    have hqueue : queueBootstrapStage cfg server tx = queueHealth cfg server tx := by
      rw [queueBootstrapStage, h]
      rfl
    rw [hpacket, TickPacket.frame] at hframe
    rw [hqueue, queueHealth]
    exact queueBuilt_of_le ⟨_, rfl, by decide⟩ hframe hroom
  · have hpacket : bootstrapPacket server = .playerAbilities := by
      rw [bootstrapPacket, h]
      rfl
    have hqueue : queueBootstrapStage cfg server tx = queueAbilities cfg server tx := by
      rw [queueBootstrapStage, h]
      rfl
    rw [hpacket, TickPacket.frame] at hframe
    rw [hqueue, queueAbilities]
    exact queueBuilt_of_le ⟨_, rfl, by decide⟩ hframe hroom
  · have hpacket : bootstrapPacket server = .playerPositionAndLook server.player := by
      rw [bootstrapPacket, h]
      rfl
    have hqueue : queueBootstrapStage cfg server tx = queuePosition cfg server tx := by
      rw [queueBootstrapStage, h]
      rfl
    rw [hpacket, TickPacket.frame] at hframe
    rw [hqueue, queuePosition, queuePositionAt]
    exact queueBuilt_of_le (builds_of_adds (buildPositionBody_adds _) (by decide)) hframe hroom
  · have hpacket : bootstrapPacket server = .chunkData server.playBootstrapChunkIndex := by
      rw [bootstrapPacket, h]
      rfl
    have hqueue : queueBootstrapStage cfg server tx = queueBootstrapChunk cfg server tx := by
      rw [queueBootstrapStage, h]
      rfl
    rw [hpacket, TickPacket.frame] at hframe
    rw [hqueue]
    exact queueBootstrapChunk_of_le hframe hroom

/-- What a tick puts into the ring begins with the frame. -/
def SendsFirst (tx : TxRing) (frame : List UInt8) (after : TxRing) : Prop :=
  ∃ more, (frame ++ more).length ≤ tx.free ∧ after = tx.push (frame ++ more)

theorem sendsFirst_push (hroom : frame.length ≤ tx.free) : SendsFirst tx frame (tx.push frame) :=
  ⟨[], by rwa [List.append_nil], by rw [List.append_nil]⟩

theorem SendsFirst.push {after : TxRing} {later : List UInt8} (h : SendsFirst tx frame after)
    (hroom : later.length ≤ after.free) : SendsFirst tx frame (after.push later) := by
  obtain ⟨more, hmore, rfl⟩ := h
  have hfree := TxRing.free_push hmore
  have hboth : ((frame ++ more) ++ later).length ≤ tx.free := by
    rw [List.length_append]
    omega
  refine ⟨more ++ later, ?_, ?_⟩
  · rwa [← List.append_assoc]
  · rw [TxRing.push_push hboth, List.append_assoc]

theorem tickBootstrap_sendsFirst (hplay : server.state = .play)
    (hsent : server.playBootstrapSent = false) (hstage : server.playBootstrapStage < mcBootstrapDone)
    (hframe : (bootstrapPacket server).frame cfg server = some frame)
    (hroom : frame.length ≤ tx.free) :
    SendsFirst tx frame (tickBootstrap cfg server tx).2.2 := by
  have hafter : (afterBootstrapPacket cfg server).state = .play ∧
      (afterBootstrapPacket cfg server).playBootstrapSent = false := by
    unfold afterBootstrapPacket
    split_ifs <;> exact ⟨hplay, hsent⟩
  rw [tickBootstrap_eq, if_pos hstage, queueBootstrapStage_of_le hstage hframe hroom]
  dsimp only
  rw [if_neg (by decide)]
  split_ifs
  · exact sendsFirst_push hroom
  · exact (tickBootstrap_preserves (P := fun _ after => SendsFirst tx frame after)
      (fun _ _ _ h _ _ _ _ hfits => h.push hfits.free) (sendsFirst_push hroom)
      hafter.1 hafter.2).1

theorem SendsFirst.tickKeepalive {after : TxRing} (h : SendsFirst tx frame after)
    (server : McServer) (nowTicks : UInt32) :
    SendsFirst tx frame (tickKeepalive cfg server after nowTicks).2.2 := by
  rw [StarrySky.Core.tickKeepalive]
  split_ifs
  · exact h
  · exact h
  · dsimp only
    rcases queueKeepalive_queuesPacket cfg server after (nextKeepaliveId server) with
      hfail | ⟨later, _, hfits, hpush⟩
    · rw [hfail]
      exact h
    · rw [hpush]
      exact h.push hfits.free

theorem tickKeepalive_of_le {nowTicks : UInt32} (hplay : server.state = .play)
    (hsent : server.playBootstrapSent = true) (hdue : KeepaliveDue cfg server nowTicks)
    (hframe : (TickPacket.keepAlive (nextKeepaliveId server)).frame cfg server = some frame)
    (hroom : frame.length ≤ tx.free) :
    (tickKeepalive cfg server tx nowTicks).2.2 = tx.push frame := by
  have hqueue : queueKeepalive cfg server tx (nextKeepaliveId server) = (true, tx.push frame) :=
    queueBuilt_of_le (builds_keepaliveBody _) hframe hroom
  have hlate : ¬(server.lastKeepaliveTick ≠ 0 ∧
      elapsedTicks nowTicks server.lastKeepaliveTick < cfg.keepaliveIntervalTicks) := by
    rintro ⟨hlast, hearly⟩
    rcases hdue with hzero | hlong
    · exact hlast hzero
    · exact UInt32.not_lt.mpr hlong hearly
  rw [tickKeepalive, if_neg (by simp [hplay, hsent]), if_neg hlate]
  dsimp only
  rw [hqueue]
  rfl

/-- The packet that the next tick owes: one of the bootstrap, or a KeepAlive after it. -/
def PacketDue (cfg : McConfig) (server : McServer) (nowTicks : UInt32) (packet : TickPacket) :
    Prop :=
  server.state = .play ∧
    (server.playBootstrapStage < mcBootstrapDone ∧ packet = bootstrapPacket server ∨
      mcBootstrapDone ≤ server.playBootstrapStage ∧ KeepaliveDue cfg server nowTicks ∧
        packet = .keepAlive (nextKeepaliveId server))

theorem Progress.packetDue {count : ℕ} {nowTicks : UInt32} {packet : TickPacket}
    (h : Progress cfg server count) (hdue : PacketDue cfg server nowTicks packet)
    (hframe : packet.frame cfg server = some frame) :
    expectedPacket (bootstrapChunkCount cfg server) count = packet.kind := by
  obtain ⟨_, ⟨hstage, rfl⟩ | ⟨hstage, _, rfl⟩⟩ := hdue
  · exact (h.afterBootstrapPacket hstage hframe).1
  · cases h with
    | bootstrap hlt => exact absurd (lt_of_lt_of_le hlt (by decide)) (Nat.not_lt.mpr hstage)
    | chunks hchunks =>
      rw [hchunks] at hstage
      exact absurd hstage (by decide)
    | done _ keepalives hid =>
      rw [expectedPacket, if_neg (by omega), Nat.add_sub_cancel_left, ← nextKeepaliveId_eq hid]
      rfl

theorem mcServerTickAt_sendsDue {nowTicks : UInt32} {packet : TickPacket}
    (hserver : server.Consistent cfg) (hdue : PacketDue cfg server nowTicks packet)
    (hframe : packet.frame cfg server = some frame) (hroom : frame.length ≤ tx.free) :
    SendsFirst tx frame (mcServerTickAt cfg server tx nowTicks).2.2 := by
  obtain ⟨hplay, ⟨hstage, rfl⟩ | ⟨hstage, hdue, rfl⟩⟩ := hdue
  · have hsent : server.playBootstrapSent = false := by
      rw [← Bool.not_eq_true]
      intro hsent
      have hdone := (hserver.bootstrapSent hsent).2
      omega
    have hbooted := @tickBootstrap_sendsFirst cfg { server with ticks := server.ticks + 1 } tx
      frame hplay hsent hstage ((frame_congr rfl _).trans hframe) hroom
    rw [mcServerTickAt, if_pos ⟨hplay, by simp [hsent]⟩]
    dsimp only
    split_ifs
    · exact hbooted
    · exact hbooted.tickKeepalive _ nowTicks
    · exact hbooted.tickKeepalive _ nowTicks
  · have hkeep : ∀ s : McServer, s.state = server.state →
        s.lastKeepaliveTick = server.lastKeepaliveTick → s.keepaliveId = server.keepaliveId →
        s.compressionEnabled = server.compressionEnabled → s.playBootstrapSent = true →
        SendsFirst tx frame (tickKeepalive cfg s tx nowTicks).2.2 := by
      intro s hstate hlast hid hmode hsent
      have hnext : nextKeepaliveId s = nextKeepaliveId server := by
        rw [nextKeepaliveId, nextKeepaliveId, hid]
      have hdue : KeepaliveDue cfg s nowTicks := by rwa [KeepaliveDue, hlast]
      rw [← hnext] at hframe
      rw [tickKeepalive_of_le (hstate.trans hplay) hsent hdue ((frame_congr hmode _).trans hframe)
        hroom]
      exact sendsFirst_push hroom
    rw [mcServerTickAt]
    dsimp only
    by_cases hsent : server.playBootstrapSent = true
    · rw [if_neg (by simp [hsent])]
      exact hkeep _ rfl rfl rfl rfl hsent
    · -- the stage is over, and this tick notes it
      rw [if_pos ⟨hplay, by simp [hsent]⟩, tickBootstrap_eq, if_neg (Nat.not_lt.mpr hstage)]
      dsimp only
      rw [if_neg (by decide), if_pos hstage]
      exact hkeep _ rfl rfl rfl rfl rfl

/-- In every session the next tick that has room for the packet that is due sends it, and it is the
one expected after those that the ticks sent before. -/
theorem sessionRun_sendsDue (cfg : McConfig) (ops : List ServerOp) {nowTicks : UInt32}
    {packet : TickPacket}
    (hdue : PacketDue cfg (sessionRun cfg (Session.start cfg) ops).server nowTicks packet)
    (hframe : packet.frame cfg (sessionRun cfg (Session.start cfg) ops).server = some frame)
    (hroom : frame.length ≤ tx.free) :
    SendsFirst tx frame
      (mcServerTickAt cfg (sessionRun cfg (Session.start cfg) ops).server tx nowTicks).2.2 ∧
    ∃ packets : List (List TickPacket),
      TicksSent cfg (sessionRun cfg (Session.start cfg) ops) packets ∧
      packet.kind = expectedPacket (bootstrapChunkCount cfg
        (sessionRun cfg (Session.start cfg) ops).server) packets.flatten.length := by
  obtain ⟨hserver, packets, hticks, hsent⟩ := sessionRun_inOrder cfg ops
  exact ⟨mcServerTickAt_sendsDue hserver hdue hframe hroom, packets, hticks,
    (hsent.progress.packetDue hdue hframe).symm⟩

end StarrySky.Core
