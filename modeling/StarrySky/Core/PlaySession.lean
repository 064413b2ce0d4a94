import StarrySky.Core.ServerInvariant

/-! What the ticks of one play session send: the bootstrap packets, the chunks and the
keepalives, in order and each once, whatever room they find. -/

namespace StarrySky.Core
open StarrySky.Base

inductive PacketKind
  | joinGame
  | spawnPosition
  | timeUpdate
  | updateHealth
  | playerAbilities
  | playerPositionAndLook
  | chunkData (index : ℕ)
  | keepAlive (id : Int32)
deriving DecidableEq

def TickPacket.kind : TickPacket → PacketKind
  | .joinGame => .joinGame
  | .spawnPosition => .spawnPosition
  | .timeUpdate _ => .timeUpdate
  | .updateHealth => .updateHealth
  | .playerAbilities => .playerAbilities
  | .playerPositionAndLook _ => .playerPositionAndLook
  | .chunkData index => .chunkData index
  | .keepAlive id => .keepAlive id

/-- The ids are 1, 2, 3 and so on, and 1 again after the largest. -/
def keepaliveIdAt (n : ℕ) : Int32 := Int32.ofNat (n % (2 ^ 31 - 1) + 1)

/-- The packet that is sent after `n` others in a session with `chunkCount` chunks. -/
def expectedPacket (chunkCount : ℕ) : ℕ → PacketKind
  | 0 => .joinGame
  | 1 => .spawnPosition
  | 2 => .timeUpdate
  | 3 => .updateHealth
  | 4 => .playerAbilities
  | 5 => .playerPositionAndLook
  | n + 6 => if n < chunkCount then .chunkData n else .keepAlive (keepaliveIdAt (n - chunkCount))

/-- The last id after `n` keepalives. -/
def lastKeepaliveId : ℕ → Int32
  | 0 => 0
  | n + 1 => keepaliveIdAt n

variable {cfg : McConfig} {server : McServer}

/-- How many packets the ticks have sent, read off the server's state. -/
inductive Progress (cfg : McConfig) (server : McServer) : ℕ → Prop
  | bootstrap (hstage : server.playBootstrapStage < mcBootstrapChunks)
      (hindex : server.playBootstrapChunkIndex = 0) (hid : server.keepaliveId = 0)
      (hsent : server.playBootstrapSent = false) : Progress cfg server server.playBootstrapStage
  | chunks (hstage : server.playBootstrapStage = mcBootstrapChunks)
      (hid : server.keepaliveId = 0) (hsent : server.playBootstrapSent = false) :
      Progress cfg server (server.playBootstrapChunkIndex + 6)
  | done (hstage : server.playBootstrapStage = mcBootstrapDone) (keepalives : ℕ)
      (hid : server.keepaliveId = lastKeepaliveId keepalives) :
      Progress cfg server (bootstrapChunkCount cfg server + keepalives + 6)

theorem toInt_keepaliveIdAt (n : ℕ) :
    (keepaliveIdAt n).toInt = ((n % (2 ^ 31 - 1) + 1 : ℕ) : ℤ) := by
  have hlt : n % (2 ^ 31 - 1) < 2 ^ 31 - 1 := Nat.mod_lt _ (by decide)
  apply Int32.toInt_ofNat_of_lt
  omega

theorem nextKeepaliveId_eq {keepalives : ℕ} (hid : server.keepaliveId = lastKeepaliveId keepalives) :
    nextKeepaliveId server = keepaliveIdAt keepalives := by
  cases keepalives with
  | zero =>
    rw [nextKeepaliveId, hid]
    decide
  | succ n =>
    have hlt : n % (2 ^ 31 - 1) < 2 ^ 31 - 1 := Nat.mod_lt _ (by decide)
    have hlast : server.keepaliveId.toInt = ((n % (2 ^ 31 - 1) + 1 : ℕ) : ℤ) := by
      rw [hid]
      exact toInt_keepaliveIdAt n
    rw [← Int32.toInt_inj, toInt_keepaliveIdAt, nextKeepaliveId]
    split_ifs with hmax
    · -- the largest id
      rw [ge_iff_le, Int32.le_iff_toInt_le, Int32.toInt_maxValue, hlast] at hmax
      rw [Int32.toInt_one]
      omega
    · rw [ge_iff_le, Int32.le_iff_toInt_le, Int32.toInt_maxValue, hlast] at hmax
      rw [Int32.toInt_add, Int32.toInt_one, hlast, Int.bmod_eq_of_le (by omega) (by omega)]
      omega

theorem Progress.keepalive {count : ℕ} (h : Progress cfg server count)
    (hsent : server.playBootstrapSent = true) (lastTick : UInt32) :
    expectedPacket (bootstrapChunkCount cfg server) count = .keepAlive (nextKeepaliveId server) ∧
      Progress cfg { server with
        keepaliveId := nextKeepaliveId server, keepalivePending := true
        lastKeepaliveTick := lastTick } (count + 1) := by
  cases h with
  | bootstrap _ _ _ hfalse => exact absurd (hfalse.symm.trans hsent) Bool.false_ne_true
  | chunks _ _ hfalse => exact absurd (hfalse.symm.trans hsent) Bool.false_ne_true
  | done hstage keepalives hid =>
    have hnext := nextKeepaliveId_eq hid
    refine ⟨?_, @Progress.done cfg { server with
      keepaliveId := nextKeepaliveId server, keepalivePending := true
      lastKeepaliveTick := lastTick } hstage (keepalives + 1) hnext⟩
    rw [expectedPacket, if_neg (by omega), Nat.add_sub_cancel_left, hnext]

theorem kind_bootstrapPacket (chunkCount : ℕ)
    (hstage : server.playBootstrapStage < mcBootstrapChunks) :
    expectedPacket chunkCount server.playBootstrapStage = (bootstrapPacket server).kind := by
  have hcases : server.playBootstrapStage = 0 ∨ server.playBootstrapStage = 1 ∨
      server.playBootstrapStage = 2 ∨ server.playBootstrapStage = 3 ∨
      server.playBootstrapStage = 4 ∨ server.playBootstrapStage = 5 := by
    have hlt : server.playBootstrapStage < 6 := hstage
    omega
  unfold bootstrapPacket
  rcases hcases with h | h | h | h | h | h
  all_goals
    rw [h]
    rfl

theorem Progress.afterBootstrapPacket {count : ℕ} (h : Progress cfg server count)
    (hstage : server.playBootstrapStage < mcBootstrapDone) {frame : List UInt8}
    (hframe : (bootstrapPacket server).frame cfg server = some frame) :
    expectedPacket (bootstrapChunkCount cfg server) count = (bootstrapPacket server).kind ∧
      Progress cfg (afterBootstrapPacket cfg server) (count + 1) := by
  unfold StarrySky.Core.afterBootstrapPacket
  cases h with
  | bootstrap hlt hindex hid hsent =>
    refine ⟨kind_bootstrapPacket _ hlt, ?_⟩
    rw [if_neg (Nat.ne_of_lt hlt)]
    by_cases hlast : server.playBootstrapStage + 1 = mcBootstrapChunks
    · have hcount : server.playBootstrapStage + 1 = server.playBootstrapChunkIndex + 6 := by
        rw [hindex, hlast]
      rw [hcount]
      exact @Progress.chunks cfg { server with
        playBootstrapStage := server.playBootstrapChunkIndex + 6 } (by rw [← hcount, hlast])
        hid hsent
    · exact @Progress.bootstrap cfg { server with
        playBootstrapStage := server.playBootstrapStage + 1 } (lt_of_le_of_ne hlt hlast)
        hindex hid hsent
  | chunks hchunks hid hsent =>
    rw [frame_bootstrapPacket_chunks hchunks] at hframe
    have hlt := index_lt_of_chunkFrame hframe
    have hpacket : bootstrapPacket server = .chunkData server.playBootstrapChunkIndex := by
      unfold bootstrapPacket
      rw [hchunks]
      rfl
    refine ⟨by rw [expectedPacket, if_pos hlt, hpacket, TickPacket.kind], ?_⟩
    rw [if_pos hchunks]
    by_cases hmore : server.playBootstrapChunkIndex + 1 < bootstrapChunkCount cfg server
    · rw [if_pos hmore]
      exact @Progress.chunks cfg { server with
        playBootstrapChunkIndex := server.playBootstrapChunkIndex + 1 } hchunks hid hsent
    · rw [if_neg hmore]
      have hcount : server.playBootstrapChunkIndex + 6 + 1 =
          bootstrapChunkCount cfg server + 0 + 6 := by omega
      rw [hcount]
      exact @Progress.done cfg { server with
        playBootstrapChunkIndex := server.playBootstrapChunkIndex + 1
        playBootstrapStage := server.playBootstrapStage + 1 } (by rw [hchunks]) 0 hid
  | done hdone => exact absurd hdone (Nat.ne_of_lt hstage)

theorem Progress.eq_zero {count : ℕ} (h : Progress cfg server count)
    (hserver : server.Consistent cfg) (hstate : server.state ≠ .play) : count = 0 := by
  have hstage := (hserver.notPlay hstate).1
  cases h with
  | bootstrap => exact hstage
  | chunks hchunks => exact absurd (hstage.symm.trans hchunks) (by decide)
  | done hdone => exact absurd (hstage.symm.trans hdone) (by decide)

theorem Progress.congr {server' : McServer} {count : ℕ} (h : Progress cfg server count)
    (hstage : server'.playBootstrapStage = server.playBootstrapStage)
    (hindex : server'.playBootstrapChunkIndex = server.playBootstrapChunkIndex)
    (hid : server'.keepaliveId = server.keepaliveId)
    (hsent : server'.playBootstrapSent = server.playBootstrapSent)
    (hchunkCount : bootstrapChunkCount cfg server' = bootstrapChunkCount cfg server) :
    Progress cfg server' count := by
  cases h with
  | bootstrap hlt hindex0 hid0 hsent0 =>
    rw [← hstage]
    exact .bootstrap (by rwa [hstage]) (hindex.trans hindex0) (hid.trans hid0)
      (hsent.trans hsent0)
  | chunks hchunks hid0 hsent0 =>
    rw [← hindex]
    exact .chunks (hstage.trans hchunks) (hid.trans hid0) (hsent.trans hsent0)
  | done hdone keepalives hlast =>
    rw [← hchunkCount]
    exact .done (hstage.trans hdone) keepalives (hid.trans hlast)

theorem progress_zero (hstage : server.playBootstrapStage = 0)
    (hindex : server.playBootstrapChunkIndex = 0) (hid : server.keepaliveId = 0)
    (hsent : server.playBootstrapSent = false) : Progress cfg server 0 := by
  rw [← hstage]
  exact .bootstrap (by rw [hstage]; decide) hindex hid hsent

/-- The packets are the first ones that are expected, and the server has counted them. -/
structure Sent (cfg : McConfig) (server : McServer) (packets : List TickPacket) : Prop where
  progress : Progress cfg server packets.length
  kinds : packets.map TickPacket.kind =
    (List.range packets.length).map (expectedPacket (bootstrapChunkCount cfg server))

theorem sent_nil (h : Progress cfg server 0) : Sent cfg server [] := ⟨h, rfl⟩

theorem Sent.eq_nil {packets : List TickPacket} (h : Sent cfg server packets)
    (hserver : server.Consistent cfg) (hstate : server.state ≠ .play) : packets = [] :=
  List.eq_nil_of_length_eq_zero (h.progress.eq_zero hserver hstate)

theorem Sent.congr {server' : McServer} {packets : List TickPacket} (h : Sent cfg server packets)
    (hstage : server'.playBootstrapStage = server.playBootstrapStage)
    (hindex : server'.playBootstrapChunkIndex = server.playBootstrapChunkIndex)
    (hid : server'.keepaliveId = server.keepaliveId)
    (hsent : server'.playBootstrapSent = server.playBootstrapSent)
    (hmode : server'.compressionEnabled = server.compressionEnabled) :
    Sent cfg server' packets := by
  have hchunkCount : bootstrapChunkCount cfg server' = bootstrapChunkCount cfg server := by
    unfold bootstrapChunkCount
    rw [hmode]
  refine ⟨h.progress.congr hstage hindex hid hsent hchunkCount, ?_⟩
  rw [hchunkCount]
  exact h.kinds

theorem Sent.append {server' : McServer} {packets : List TickPacket} {packet : TickPacket}
    (h : Sent cfg server packets) (hmode : server'.compressionEnabled = server.compressionEnabled)
    (hkind : expectedPacket (bootstrapChunkCount cfg server) packets.length = packet.kind)
    (hprogress : Progress cfg server' (packets.length + 1)) :
    Sent cfg server' (packets ++ [packet]) := by
  have hchunkCount : bootstrapChunkCount cfg server' = bootstrapChunkCount cfg server := by
    unfold bootstrapChunkCount
    rw [hmode]
  constructor
  · rwa [List.length_append, List.length_singleton]
  · rw [List.length_append, List.length_singleton, List.range_succ, List.map_append,
      List.map_append, h.kinds, hchunkCount, List.map_singleton, List.map_singleton, hkind]

/-- The ring after a tick is the one before it with the packets' frames behind it. -/
def PushesPackets (cfg : McConfig) (server : McServer) (packets : List TickPacket)
    (before after : TxRing) : Prop :=
  ∃ frames : List (List UInt8),
    packets.map (fun packet => packet.frame cfg server) = frames.map some ∧
    frames.flatten.length ≤ before.free ∧ after = before.push frames.flatten

theorem frame_congr {server' : McServer}
    (hmode : server'.compressionEnabled = server.compressionEnabled) (packet : TickPacket) :
    packet.frame cfg server' = packet.frame cfg server := by
  -- A frame only depends on the framing mode.
  have hauto : autoFrame cfg server' = autoFrame cfg server := by
    funext body
    unfold autoFrame
    rw [hmode]
  cases packet with
  | chunkData index =>
    rw [TickPacket.frame, TickPacket.frame, chunkFrame, chunkFrame, hmode, hauto]
  | joinGame => rw [TickPacket.frame, TickPacket.frame, hauto]
  | spawnPosition => rw [TickPacket.frame, TickPacket.frame, hauto]
  | timeUpdate timeOfDay => rw [TickPacket.frame, TickPacket.frame, hauto]
  | updateHealth => rw [TickPacket.frame, TickPacket.frame, hauto]
  | playerAbilities => rw [TickPacket.frame, TickPacket.frame, hauto]
  | playerPositionAndLook position => rw [TickPacket.frame, TickPacket.frame, hauto]
  | keepAlive id => rw [TickPacket.frame, TickPacket.frame, hauto]

theorem PushesPackets.congr {server' : McServer} {packets : List TickPacket}
    {before after : TxRing} (h : PushesPackets cfg server packets before after)
    (hmode : server'.compressionEnabled = server.compressionEnabled) :
    PushesPackets cfg server' packets before after := by
  obtain ⟨frames, hframes, hfits, hafter⟩ := h
  refine ⟨frames, ?_, hfits, hafter⟩
  rw [← hframes]
  apply List.map_congr_left
  intro packet _
  exact frame_congr hmode packet

theorem pushesPackets_nil (cfg : McConfig) (server : McServer) (tx : TxRing) :
    PushesPackets cfg server [] tx tx :=
  ⟨[], rfl, Nat.zero_le _, (TxRing.push_nil tx).symm⟩

theorem PushesPackets.append {packets : List TickPacket} {packet : TickPacket}
    {before after : TxRing} {frame : List UInt8}
    (h : PushesPackets cfg server packets before after)
    (hframe : packet.frame cfg server = some frame) (hfits : frame.length ≤ after.free) :
    PushesPackets cfg server (packets ++ [packet]) before (after.push frame) := by
  obtain ⟨frames, hframes, hroom, rfl⟩ := h
  have hflatten : (frames ++ [frame]).flatten = frames.flatten ++ frame := by simp
  have hfree := TxRing.free_push hroom
  have hlength : (frames.flatten ++ frame).length ≤ before.free := by
    rw [List.length_append]
    omega
  refine ⟨frames ++ [frame], ?_, ?_, ?_⟩
  · rw [List.map_append, List.map_append, hframes, List.map_singleton, List.map_singleton, hframe]
  · rwa [hflatten]
  · rw [hflatten, TxRing.push_push hlength]

/-- What a tick has done so far: `packets` went into the ring `tx` that it began with. -/
structure TickSent (cfg : McConfig) (server : McServer) (sent : List TickPacket) (tx : TxRing)
    (packets : List TickPacket) (server' : McServer) (tx' : TxRing) : Prop where
  mode : server'.compressionEnabled = server.compressionEnabled
  pushes : PushesPackets cfg server packets tx tx'
  sent : Sent cfg server' (sent ++ packets)

theorem Sent.tickStart {sent : List TickPacket} (h : Sent cfg server sent) (tx : TxRing) :
    TickSent cfg server sent tx [] server tx :=
  ⟨rfl, pushesPackets_nil cfg server tx, by rwa [List.append_nil]⟩

namespace TickSent
variable {sent packets : List TickPacket} {tx tx' : TxRing} {server' : McServer}

theorem congr {server'' : McServer} (h : TickSent cfg server sent tx packets server' tx')
    (hstage : server''.playBootstrapStage = server'.playBootstrapStage)
    (hindex : server''.playBootstrapChunkIndex = server'.playBootstrapChunkIndex)
    (hid : server''.keepaliveId = server'.keepaliveId)
    (hsent : server''.playBootstrapSent = server'.playBootstrapSent)
    (hmode : server''.compressionEnabled = server'.compressionEnabled) :
    TickSent cfg server sent tx packets server'' tx' :=
  ⟨hmode.trans h.mode, h.pushes, h.sent.congr hstage hindex hid hsent hmode⟩

theorem bootstrapPacket (h : TickSent cfg server sent tx packets server' tx')
    (hstage : server'.playBootstrapStage < mcBootstrapDone) {frame : List UInt8}
    (hframe : (bootstrapPacket server').frame cfg server' = some frame) (hfits : tx'.Fits frame) :
    TickSent cfg server sent tx (packets ++ [StarrySky.Core.bootstrapPacket server'])
      (afterBootstrapPacket cfg server') (tx'.push frame) := by
  have hsame : (afterBootstrapPacket cfg server').compressionEnabled =
      server'.compressionEnabled := by
    unfold afterBootstrapPacket
    split_ifs <;> rfl
  obtain ⟨hkind, hprogress⟩ := h.sent.progress.afterBootstrapPacket hstage hframe
  rw [frame_congr h.mode] at hframe
  refine ⟨hsame.trans h.mode, h.pushes.append hframe hfits.free, ?_⟩
  rw [← List.append_assoc]
  exact h.sent.append hsame hkind hprogress

theorem done (h : TickSent cfg server sent tx packets server' tx')
    (hdone : mcBootstrapDone ≤ server'.playBootstrapStage) :
    TickSent cfg server sent tx packets { server' with playBootstrapSent := true } tx' := by
  refine ⟨h.mode, h.pushes, ?_, h.sent.kinds⟩
  have hcount := h.sent.progress
  generalize (sent ++ packets).length = count at hcount ⊢
  cases hcount with
  | bootstrap hlt => exact absurd (lt_of_lt_of_le hlt (by decide)) (Nat.not_lt.mpr hdone)
  | chunks hchunks =>
    rw [hchunks] at hdone
    exact absurd hdone (by decide)
  | done hstage keepalives hid =>
    exact @Progress.done cfg { server' with playBootstrapSent := true } hstage keepalives hid

theorem keepalive (h : TickSent cfg server sent tx packets server' tx')
    (hbooted : server'.playBootstrapSent = true) (nowTicks : UInt32) {frame : List UInt8}
    (hframe : (TickPacket.keepAlive (nextKeepaliveId server')).frame cfg server' = some frame)
    (hfits : tx'.Fits frame) :
    TickSent cfg server sent tx (packets ++ [.keepAlive (nextKeepaliveId server')])
      { server' with
        keepaliveId := nextKeepaliveId server', keepalivePending := true
        lastKeepaliveTick := nowTicks } (tx'.push frame) := by
  obtain ⟨hkind, hprogress⟩ := h.sent.progress.keepalive hbooted nowTicks
  rw [frame_congr h.mode] at hframe
  refine ⟨h.mode, h.pushes.append hframe hfits.free, ?_⟩
  rw [← List.append_assoc]
  exact h.sent.append rfl hkind hprogress

end TickSent

/-- A tick sends the packets that are due next, as many as it gets into the ring. -/
theorem Sent.tickAt {sent : List TickPacket} (h : Sent cfg server sent) (tx : TxRing)
    (nowTicks : UInt32) :
    (mcServerTickAt cfg server tx nowTicks).2.1.compressionEnabled = server.compressionEnabled ∧
    ∃ packets, PushesPackets cfg server packets tx (mcServerTickAt cfg server tx nowTicks).2.2 ∧
      Sent cfg (mcServerTickAt cfg server tx nowTicks).2.1 (sent ++ packets) := by
  have hticked : ∃ packets, TickSent cfg server sent tx packets
      (mcServerTickAt cfg server tx nowTicks).2.1 (mcServerTickAt cfg server tx nowTicks).2.2 := by
    apply mcServerTickAt_preserves (P := fun s t => ∃ packets,
      TickSent cfg server sent tx packets s t) (h := ⟨[], h.tickStart tx⟩)
    case hticks =>
      rintro s ticks t ⟨packets, h⟩
      exact ⟨packets, h.congr rfl rfl rfl rfl rfl⟩
    case hpacket =>
      rintro s t frame ⟨packets, h⟩ _ _ hstage hframe hfits
      exact ⟨_, h.bootstrapPacket hstage hframe hfits⟩
    case hdone =>
      rintro s t ⟨packets, h⟩ _ hdone
      exact ⟨packets, h.done hdone⟩
    case hkeepalive =>
      rintro s t frame ⟨packets, h⟩ _ hbooted hframe hfits
      exact ⟨_, h.keepalive hbooted nowTicks hframe hfits⟩
  obtain ⟨packets, h⟩ := hticked
  exact ⟨h.mode, packets, h.pushes, h.sent⟩

theorem Sent.packetStep {sent : List TickPacket} {tx : TxRing} (h : Sent cfg server sent)
    (hserver : server.Consistent cfg) {result : Bool × McServer × TxRing}
    (hstep : PacketStep cfg server tx result) :
    Sent cfg result.2.1 sent ∧
      (result.2.1.compressionEnabled = server.compressionEnabled ∨ sent = []) := by
  -- Packets of the client change no progress; before the play state there is none.
  have hbefore : server.state ≠ .play → sent = [] := h.eq_nil hserver
  cases hstep with
  | reject => exact ⟨h, .inl rfl⟩
  | ignore => exact ⟨h, .inl rfl⟩
  | acceptHandshake hstate next hnext =>
    rw [hbefore hstate]
    exact ⟨sent_nil (progress_zero rfl rfl rfl rfl), .inr rfl⟩
  | badNextState hstate =>
    rw [hbefore hstate]
    exact ⟨sent_nil (progress_zero rfl rfl rfl rfl), .inr rfl⟩
  | answerStatus hstate id hid rest hfits => exact ⟨h, .inl rfl⟩
  | loginCompressed _ hstate text htext hname success hsuccess hfits =>
    have hlogin : server.state ≠ .play := by rw [hstate]; decide
    obtain ⟨hstage, hindex, hsent, hid⟩ := hserver.notPlay hlogin
    rw [hbefore hlogin]
    exact ⟨sent_nil (progress_zero hstage hindex hid hsent), .inr rfl⟩
  | loginPlain _ hstate text htext hname success hsuccess hfits =>
    exact ⟨h.congr rfl rfl rfl rfl rfl, .inl rfl⟩
  | keepalive hstate => exact ⟨h.congr rfl rfl rfl rfl rfl, .inl rfl⟩
  | movement hstate player onGround => exact ⟨h.congr rfl rfl rfl rfl rfl, .inl rfl⟩
  | chat hstate message result hresult packets hpackets hbodies hfits =>
    obtain ⟨action, chat⟩ := result
    cases action with
    | chat => exact ⟨h, .inl rfl⟩
    | teleport position => exact ⟨h.congr rfl rfl rfl rfl rfl, .inl rfl⟩
    | time timeOfDay => exact ⟨h.congr rfl rfl rfl rfl rfl, .inl rfl⟩
    | weather weather => exact ⟨h.congr rfl rfl rfl rfl rfl, .inl rfl⟩

theorem Sent.receive {sent : List TickPacket} (h : Sent cfg server sent)
    (hserver : server.Consistent cfg) (bytes : List UInt8) (tx : TxRing) :
    Sent cfg (mcServerReceive cfg server bytes tx).2.1 sent ∧
      ((mcServerReceive cfg server bytes tx).2.1.compressionEnabled = server.compressionEnabled ∨
        sent = []) := by
  apply And.right
  apply mcServerReceive_preserves (P := fun s _ => s.Consistent cfg ∧ Sent cfg s sent ∧
    (s.compressionEnabled = server.compressionEnabled ∨ sent = [])) (h := ⟨hserver, h, .inl rfl⟩)
  · rintro s body t ⟨hs, hsent, hmode⟩
    have hstep := handlePacket_step cfg s body t
    obtain ⟨hsent', hmode'⟩ := hsent.packetStep hs hstep
    refine ⟨hs.packetStep hstep, hsent', ?_⟩
    rcases hmode' with hmode' | hnil
    · rwa [hmode']
    · exact .inr hnil
  · rintro s rxAccum t ⟨hs, hsent, hmode⟩
    exact ⟨hs.withAccum rxAccum, hsent.congr rfl rfl rfl rfl rfl, hmode⟩

/-- A server, and the rings before and after each tick since it was initialised. -/
structure Session where
  server : McServer
  ticks : List (TxRing × TxRing)

def Session.start (cfg : McConfig) : Session := { server := mcServerInit cfg, ticks := [] }

def sessionStep (cfg : McConfig) (session : Session) : ServerOp → Session
  | .init => Session.start cfg
  | .receive bytes tx => { session with server := (mcServerReceive cfg session.server bytes tx).2.1 }
  | .tickAt nowTicks tx =>
    let ticked := mcServerTickAt cfg session.server tx nowTicks
    { server := ticked.2.1, ticks := session.ticks ++ [(tx, ticked.2.2)] }
  | .takeTxReset => { session with server := (mcServerTakeTxReset session.server).2 }

def sessionRun (cfg : McConfig) : Session → List ServerOp → Session
  | session, [] => session
  | session, op :: ops => sessionRun cfg (sessionStep cfg session op) ops

/-- The packets of the ticks, tick by tick. -/
def TicksSent (cfg : McConfig) (session : Session) (packets : List (List TickPacket)) : Prop :=
  List.Forall₂ (fun sent tick => PushesPackets cfg session.server sent tick.1 tick.2)
    packets session.ticks

def SessionInOrder (cfg : McConfig) (session : Session) : Prop :=
  session.server.Consistent cfg ∧
    ∃ packets, TicksSent cfg session packets ∧ Sent cfg session.server packets.flatten

theorem TicksSent.congr {session : Session} {packets : List (List TickPacket)}
    (h : TicksSent cfg session packets) {server' : McServer}
    (hmode : server'.compressionEnabled = session.server.compressionEnabled ∨
      packets.flatten = []) :
    TicksSent cfg { session with server := server' } packets := by
  rcases hmode with hmode | hnil
  · exact h.imp fun _ _ hpushes => hpushes.congr hmode
  · -- no tick has sent anything
    have hempty := List.flatten_eq_nil_iff.mp hnil
    obtain ⟨server, ticks⟩ := session
    unfold TicksSent at h ⊢
    dsimp only at h ⊢
    clear hnil
    induction h with
    | nil => exact .nil
    | cons hpushes _ ih =>
      obtain ⟨frames, hframes, hfits, hafter⟩ := hpushes
      refine .cons ⟨frames, ?_, hfits, hafter⟩ (ih fun l hl => hempty l (List.mem_cons_of_mem _ hl))
      rw [hempty _ List.mem_cons_self] at hframes ⊢
      exact hframes

theorem sessionStep_inOrder (session : Session) (op : ServerOp)
    (h : SessionInOrder cfg session) : SessionInOrder cfg (sessionStep cfg session op) := by
  obtain ⟨hserver, packets, hticks, hsent⟩ := h
  cases op with
  | init =>
    exact ⟨consistent_mcServerInit cfg, [], .nil, sent_nil (progress_zero rfl rfl rfl rfl)⟩
  | receive bytes tx =>
    obtain ⟨hsent', hmode⟩ := hsent.receive hserver bytes tx
    exact ⟨hserver.receive bytes tx, packets, hticks.congr hmode, hsent'⟩
  | tickAt nowTicks tx =>
    obtain ⟨hmode, more, hpushes, hsent'⟩ := hsent.tickAt tx nowTicks
    refine ⟨hserver.tickAt tx nowTicks, packets ++ [more], ?_, ?_⟩
    · have hbefore := hticks.congr (.inl hmode)
      have hlast : TicksSent cfg { server := _, ticks := [(tx, _)] } [more] :=
        .cons (hpushes.congr hmode) .nil
      exact List.rel_append hbefore hlast
    · rw [List.flatten_append, List.flatten_singleton]
      exact hsent'
  | takeTxReset =>
    exact ⟨hserver.takeTxReset, packets, hticks, hsent.congr rfl rfl rfl rfl rfl⟩

theorem sessionRun_inOrder (cfg : McConfig) (ops : List ServerOp) :
    SessionInOrder cfg (sessionRun cfg (Session.start cfg) ops) := by
  have hrun : ∀ session, SessionInOrder cfg session →
      SessionInOrder cfg (sessionRun cfg session ops) := by
    intro session h
    induction ops generalizing session with
    | nil => exact h
    | cons op ops ih => exact ih _ (sessionStep_inOrder session op h)
  exact hrun _ ⟨consistent_mcServerInit cfg, [], .nil, sent_nil (progress_zero rfl rfl rfl rfl)⟩

/-- In every session the ticks send the expected packets in order, each one whole. -/
theorem sessionRun_packets (cfg : McConfig) (ops : List ServerOp) :
    ∃ packets : List (List TickPacket),
      TicksSent cfg (sessionRun cfg (Session.start cfg) ops) packets ∧
      packets.flatten.map TickPacket.kind = (List.range packets.flatten.length).map
        (expectedPacket (bootstrapChunkCount cfg
          (sessionRun cfg (Session.start cfg) ops).server)) := by
  obtain ⟨_, packets, hticks, hsent⟩ := sessionRun_inOrder cfg ops
  exact ⟨packets, hticks, hsent.kinds⟩

end StarrySky.Core
