import StarrySky.Core.PlaySession
import StarrySky.Core.ReceiveCalls

/-! The time between two KeepAlive packets of a session, in real ticks, while the server only
knows their last 32 bits. -/

namespace StarrySky.Core
open StarrySky.Base

/-- A call of a session; a tick happens at a real time, of which the server is given 32 bits. -/
inductive TimedOp
  | receive (bytes : List UInt8) (tx : TxRing)
  | tickAt (time : ℕ) (tx : TxRing)
  | takeTxReset

def TimedOp.op : TimedOp → ServerOp
  | .receive bytes tx => .receive bytes tx
  | .tickAt time tx => .tickAt (UInt32.ofNat time) tx
  | .takeTxReset => .takeTxReset

def TimedOp.time : TimedOp → Option ℕ
  | .tickAt time _ => some time
  | _ => none

def tickTimes (ops : List TimedOp) : List ℕ := ops.filterMap TimedOp.time

def TickPacket.isKeepAlive : TickPacket → Bool
  | .keepAlive _ => true
  | _ => false

/-- When the KeepAlives among the packets of the ticks were sent. -/
def keepaliveTimes (ticks : List (ℕ × List TickPacket)) : List ℕ :=
  ticks.flatMap fun tick => (tick.2.filter TickPacket.isKeepAlive).map fun _ => tick.1

/-- The tick is not within an interval of a KeepAlive whose time was recorded as 0. -/
def ZeroStampExpired (cfg : McConfig) (server : McServer) (time : ℕ) : Prop :=
  server.lastKeepaliveTick = 0 →
    server.keepaliveId = 0 ∨ cfg.keepaliveIntervalTicks.toNat ≤ time % 2 ^ 32

variable {cfg : McConfig} {server server' : McServer}

/-- The times of the KeepAlives so far, and what the server has recorded of the last one. -/
structure KeepaliveSpaced (cfg : McConfig) (server : McServer) (sends : List ℕ) (now : ℕ) :
    Prop where
  spaced : sends.IsChain fun a b => a + cfg.keepaliveIntervalTicks.toNat ≤ b
  never : sends = [] → server.lastKeepaliveTick = 0 ∧ server.keepaliveId = 0
  last : ∀ sent ∈ sends.getLast?, server.state = .play ∧
    server.lastKeepaliveTick = UInt32.ofNat sent ∧ server.keepaliveId ≠ 0 ∧ sent ≤ now

namespace KeepaliveSpaced
variable {sends : List ℕ} {now : ℕ}

theorem congr (h : KeepaliveSpaced cfg server sends now) (hstate : server'.state = server.state)
    (hlast : server'.lastKeepaliveTick = server.lastKeepaliveTick)
    (hid : server'.keepaliveId = server.keepaliveId) : KeepaliveSpaced cfg server' sends now := by
  refine ⟨h.spaced, ?_, ?_⟩
  · rw [hlast, hid]
    exact h.never
  · rw [hstate, hlast, hid]
    exact h.last

theorem mono (h : KeepaliveSpaced cfg server sends now) {later : ℕ} (hlater : now ≤ later) :
    KeepaliveSpaced cfg server sends later := by
  refine ⟨h.spaced, h.never, ?_⟩
  intro sent hsent
  obtain ⟨hstate, hlast, hid, hle⟩ := h.last sent hsent
  exact ⟨hstate, hlast, hid, hle.trans hlater⟩

theorem eq_nil (h : KeepaliveSpaced cfg server sends now) (hstate : server.state ≠ .play) :
    sends = [] := by
  rw [← List.getLast?_eq_none_iff, Option.eq_none_iff_forall_not_mem]
  intro sent hsent
  exact hstate (h.last sent hsent).1

theorem nil (hlast : server.lastKeepaliveTick = 0) (hid : server.keepaliveId = 0) (now : ℕ) :
    KeepaliveSpaced cfg server [] now := ⟨.nil, fun _ => ⟨hlast, hid⟩, nofun⟩

theorem packetStep {tx : TxRing} (h : KeepaliveSpaced cfg server sends now)
    {result : Bool × McServer × TxRing} (hstep : PacketStep cfg server tx result) :
    KeepaliveSpaced cfg result.2.1 sends now := by
  cases hstep with
  | reject => exact h
  | ignore => exact h
  | acceptHandshake hstate next hnext =>
    rw [h.eq_nil hstate]
    exact nil rfl rfl now
  | badNextState hstate =>
    rw [h.eq_nil hstate]
    exact nil rfl rfl now
  | answerStatus hstate id hid rest hfits => exact h
  | loginCompressed _ hstate text htext hname success hsuccess hfits =>
    have hnil := h.eq_nil (by rw [hstate]; decide)
    have hnever := h.never hnil
    rw [hnil]
    apply nil
    · exact hnever.1
    · exact hnever.2
  | loginPlain _ hstate text htext hname success hsuccess hfits =>
    have hnil := h.eq_nil (by rw [hstate]; decide)
    have hnever := h.never hnil
    rw [hnil]
    apply nil
    · exact hnever.1
    · exact hnever.2
  | keepalive hstate => exact h.congr rfl rfl rfl
  | movement hstate player onGround => exact h.congr rfl rfl rfl
  | chat hstate message result hresult packets hpackets hbodies hfits =>
    obtain ⟨action, chat⟩ := result
    cases action with
    | chat => exact h
    | teleport position => exact h.congr rfl rfl rfl
    | time timeOfDay => exact h.congr rfl rfl rfl
    | weather weather => exact h.congr rfl rfl rfl

theorem receive (h : KeepaliveSpaced cfg server sends now) (bytes : List UInt8) (tx : TxRing) :
    KeepaliveSpaced cfg (mcServerReceive cfg server bytes tx).2.1 sends now :=
  mcServerReceive_preserves (P := fun s _ => KeepaliveSpaced cfg s sends now)
    (fun s body t h => h.packetStep (handlePacket_step cfg s body t))
    (fun _ _ _ h => h.congr rfl rfl rfl) bytes h

end KeepaliveSpaced

theorem elapsedTicks_le {sent time : ℕ} (h : sent ≤ time) :
    (elapsedTicks (UInt32.ofNat time) (UInt32.ofNat sent)).toNat ≤ time - sent := by
  -- The 32-bit difference never exceeds the real one.
  rw [elapsedTicks, UInt32.toNat_sub, UInt32.toNat_ofNat', UInt32.toNat_ofNat']
  omega

theorem KeepaliveSpaced.append {sends : List ℕ} {now time : ℕ}
    (h : KeepaliveSpaced cfg server sends now) (hnow : now ≤ time)
    (hdue : KeepaliveDue cfg server (UInt32.ofNat time))
    (hstamp : ZeroStampExpired cfg server time) (hplay : server'.state = .play)
    (hlast : server'.lastKeepaliveTick = UInt32.ofNat time) (hid : server'.keepaliveId ≠ 0) :
    KeepaliveSpaced cfg server' (sends ++ [time]) time := by
  have hgap : ∀ sent ∈ sends.getLast?, sent + cfg.keepaliveIntervalTicks.toNat ≤ time := by
    intro sent hsent
    obtain ⟨_, hrecorded, hnonzero, hle⟩ := h.last sent hsent
    have hpast : sent ≤ time := hle.trans hnow
    rcases hdue with hzero | helapsed
    · -- the last one was recorded as 0, which is taken for never
      have hinterval := (hstamp hzero).resolve_left hnonzero
      have hmod : sent % 2 ^ 32 = 0 := by
        rw [hzero] at hrecorded
        have htoNat := congrArg UInt32.toNat hrecorded
        rw [UInt32.toNat_ofNat'] at htoNat
        exact htoNat.symm
      omega
    · rw [hrecorded] at helapsed
      have hreal := (UInt32.le_iff_toNat_le.mp helapsed).trans (elapsedTicks_le hpast)
      omega
  refine ⟨?_, ?_, ?_⟩
  · apply h.spaced.append (.singleton time)
    intro sent hsent next hnext
    rw [List.head?_cons, Option.mem_some_iff] at hnext
    rw [← hnext]
    exact hgap sent hsent
  · intro hnil
    exact absurd hnil (by simp)
  · intro sent hsent
    rw [List.getLast?_concat, Option.mem_some_iff] at hsent
    rw [← hsent]
    exact ⟨hplay, hlast, hid, le_rfl⟩

theorem keepaliveTimes_append (front back : List (ℕ × List TickPacket)) :
    keepaliveTimes (front ++ back) = keepaliveTimes front ++ keepaliveTimes back :=
  List.flatMap_append

theorem keepaliveTimes_singleton (time : ℕ) (packets : List TickPacket) :
    keepaliveTimes [(time, packets)] =
      (packets.filter TickPacket.isKeepAlive).map fun _ => time := by
  rw [keepaliveTimes, List.flatMap_cons, List.flatMap_nil, List.append_nil]

theorem isKeepAlive_bootstrapPacket (server : McServer) :
    (bootstrapPacket server).isKeepAlive = false := by
  unfold bootstrapPacket
  split_ifs <;> rfl

/-- Before its KeepAlive a tick has sent none, and changed nothing of what decides on it. -/
structure BeforeKeepalive (cfg : McConfig) (server : McServer) (sent : List TickPacket)
    (tx : TxRing) (packets : List TickPacket) (server' : McServer) (tx' : TxRing) : Prop where
  tickSent : TickSent cfg server sent tx packets server' tx'
  none : packets.filter TickPacket.isKeepAlive = []
  state : server'.state = server.state
  last : server'.lastKeepaliveTick = server.lastKeepaliveTick
  id : server'.keepaliveId = server.keepaliveId

theorem BeforeKeepalive.bootstrapPacket {sent packets : List TickPacket} {tx tx' : TxRing}
    (h : BeforeKeepalive cfg server sent tx packets server' tx')
    (hstage : server'.playBootstrapStage < mcBootstrapDone) {frame : List UInt8}
    (hframe : (bootstrapPacket server').frame cfg server' = some frame) (hfits : tx'.Fits frame) :
    BeforeKeepalive cfg server sent tx (packets ++ [StarrySky.Core.bootstrapPacket server'])
      (afterBootstrapPacket cfg server') (tx'.push frame) := by
  have hsame : (afterBootstrapPacket cfg server').state = server'.state ∧
      (afterBootstrapPacket cfg server').lastKeepaliveTick = server'.lastKeepaliveTick ∧
      (afterBootstrapPacket cfg server').keepaliveId = server'.keepaliveId := by
    unfold afterBootstrapPacket
    split_ifs <;> exact ⟨rfl, rfl, rfl⟩
  refine ⟨h.tickSent.bootstrapPacket hstage hframe hfits, ?_, hsame.1.trans h.state,
    hsame.2.1.trans h.last, hsame.2.2.trans h.id⟩
  have hother : ¬ (StarrySky.Core.bootstrapPacket server').isKeepAlive = true := by
    rw [isKeepAlive_bootstrapPacket]
    exact Bool.false_ne_true
  rw [List.filter_append, h.none, List.nil_append, List.filter_cons_of_neg hother]
  rfl

theorem KeepaliveSpaced.tickAt {sent : List TickPacket} {sends : List ℕ} {now time : ℕ}
    (h : KeepaliveSpaced cfg server sends now) (hsent : Sent cfg server sent)
    (hserver : server.Consistent cfg) (hnow : now ≤ time)
    (hstamp : ZeroStampExpired cfg server time) (tx : TxRing) :
    ∃ packets, TickSent cfg server sent tx packets
        (mcServerTickAt cfg server tx (UInt32.ofNat time)).2.1
        (mcServerTickAt cfg server tx (UInt32.ofNat time)).2.2 ∧
      KeepaliveSpaced cfg (mcServerTickAt cfg server tx (UInt32.ofNat time)).2.1
        (sends ++ keepaliveTimes [(time, packets)]) time := by
  apply mcServerTickAt_steps
    (P := fun s t => ∃ packets, BeforeKeepalive cfg server sent tx packets s t)
    (Q := fun s t => ∃ packets, TickSent cfg server sent tx packets s t ∧
      KeepaliveSpaced cfg s (sends ++ keepaliveTimes [(time, packets)]) time)
    (h := ⟨[], hsent.tickStart tx, rfl, rfl, rfl, rfl⟩)
  case hticks =>
    rintro s ticks t ⟨packets, h⟩
    exact ⟨packets, h.tickSent.congr rfl rfl rfl rfl rfl, h.none, h.state, h.last, h.id⟩
  case hpacket =>
    rintro s t frame ⟨packets, h⟩ _ _ hstage hframe hfits
    exact ⟨_, h.bootstrapPacket hstage hframe hfits⟩
  case hdone =>
    rintro s t ⟨packets, h⟩ _ hdone
    exact ⟨packets, h.tickSent.done hdone, h.none, h.state, h.last, h.id⟩
  case hkeepalive =>
    rintro s t frame ⟨packets, hs⟩ hplay hbooted hdue hframe hfits
    refine ⟨_, hs.tickSent.keepalive hbooted (UInt32.ofNat time) hframe hfits, ?_⟩
    have htimes : keepaliveTimes [(time, packets ++ [.keepAlive (nextKeepaliveId s)])] =
        [time] := by
      rw [keepaliveTimes_singleton, List.filter_append, hs.none]
      rfl
    have hpositive : 0 < nextKeepaliveId s := by
      apply nextKeepaliveId_pos
      rw [hs.id]
      exact hserver.keepaliveId
    rw [KeepaliveDue, hs.last] at hdue
    rw [htimes]
    exact h.append hnow hdue hstamp hplay rfl (Int32.ne_of_lt hpositive).symm
  case hnone =>
    rintro s t ⟨packets, hs⟩
    have htimes : keepaliveTimes [(time, packets)] = [] := by
      rw [keepaliveTimes_singleton, hs.none]
      rfl
    refine ⟨packets, hs.tickSent, ?_⟩
    rw [htimes, List.append_nil]
    exact (h.congr hs.state hs.last hs.id).mono hnow

/-- The state of a session and the times of its ticks. -/
def SpacedSession (cfg : McConfig) (session : Session) (times : List ℕ) : Prop :=
  session.server.Consistent cfg ∧
    ∃ packets, packets.length = times.length ∧ TicksSent cfg session packets ∧
      Sent cfg session.server packets.flatten ∧
      KeepaliveSpaced cfg session.server (keepaliveTimes (times.zip packets)) (times.getLastD 0)

theorem SpacedSession.step {session : Session} {times : List ℕ}
    (h : SpacedSession cfg session times) (op : TimedOp)
    (htimes : ∀ time ∈ op.time, times.getLastD 0 ≤ time)
    (hstamp : ∀ time ∈ op.time, ZeroStampExpired cfg session.server time) :
    SpacedSession cfg (sessionStep cfg session op.op) (times ++ op.time.toList) := by
  obtain ⟨hserver, packets, hlength, hticks, hsent, hspaced⟩ := h
  cases op with
  | receive bytes tx =>
    obtain ⟨hsent', hmode⟩ := hsent.receive hserver bytes tx
    rw [show times ++ (TimedOp.receive bytes tx).time.toList = times from List.append_nil times]
    exact ⟨hserver.receive bytes tx, packets, hlength, hticks.congr hmode, hsent',
      hspaced.receive bytes tx⟩
  | tickAt time tx =>
    obtain ⟨more, hmore, hspaced'⟩ := hspaced.tickAt hsent hserver (htimes time rfl)
      (hstamp time rfl) tx
    have hlast : (times ++ [time]).getLastD 0 = time := by
      rw [List.getLastD_eq_getLast?, List.getLast?_concat, Option.getD_some]
    rw [TimedOp.time, Option.toList_some]
    refine ⟨hserver.tickAt tx (UInt32.ofNat time), packets ++ [more], ?_, ?_, ?_, ?_⟩
    · rw [List.length_append, List.length_append, hlength]
      rfl
    · have hbefore := hticks.congr (.inl hmore.mode)
      have hlast : TicksSent cfg { server := _, ticks := [(tx, _)] } [more] :=
        .cons (hmore.pushes.congr hmore.mode) .nil
      exact List.rel_append hbefore hlast
    · rw [List.flatten_append, List.flatten_singleton]
      exact hmore.sent
    · rw [hlast, List.zip_append hlength.symm, keepaliveTimes_append]
      exact hspaced'
  | takeTxReset =>
    rw [show times ++ TimedOp.takeTxReset.time.toList = times from List.append_nil times]
    exact ⟨hserver.takeTxReset, packets, hlength, hticks, hsent.congr rfl rfl rfl rfl rfl,
      hspaced.congr rfl rfl rfl⟩

theorem tickTimes_cons (op : TimedOp) (ops : List TimedOp) :
    tickTimes (op :: ops) = op.time.toList ++ tickTimes ops := by
  cases op <;> rfl

/-- The condition on a run: at each of its ticks the zero stamp has expired. -/
def StampsExpired (cfg : McConfig) : Session → List TimedOp → Prop
  | _, [] => True
  | session, op :: ops =>
    (∀ time ∈ op.time, ZeroStampExpired cfg session.server time) ∧
      StampsExpired cfg (sessionStep cfg session op.op) ops

theorem SpacedSession.run {session : Session} {times : List ℕ}
    (h : SpacedSession cfg session times) {ops : List TimedOp}
    (htimes : (times ++ tickTimes ops).IsChain (· ≤ ·)) (hstamps : StampsExpired cfg session ops) :
    SpacedSession cfg (sessionRun cfg session (ops.map TimedOp.op)) (times ++ tickTimes ops) := by
  induction ops generalizing session times with
  | nil =>
    rw [show times ++ tickTimes [] = times from List.append_nil times]
    exact h
  | cons op ops ih =>
    rw [tickTimes_cons, ← List.append_assoc] at htimes ⊢
    apply ih (h.step op ?_ hstamps.1) htimes hstamps.2
    intro time htime
    have hhead : op.time.toList.head? = some time := by
      rw [Option.mem_def.mp htime]
      rfl
    rw [List.getLastD_eq_getLast?]
    cases hlast : times.getLast? with
    | none => exact Nat.zero_le _
    | some last =>
      exact (List.isChain_append.mp htimes.left_of_append).2.2 last hlast time hhead

/-- In a session none of whose ticks finds a KeepAlive recorded as sent at 0 within the interval,
the KeepAlives are an interval apart, whatever the 32-bit counter does. -/
theorem sessionRun_keepaliveSpacing (cfg : McConfig) (ops : List TimedOp)
    (htimes : (tickTimes ops).IsChain (· ≤ ·))
    (hstamps : StampsExpired cfg (Session.start cfg) ops) :
    ∃ packets : List (List TickPacket),
      TicksSent cfg (sessionRun cfg (Session.start cfg) (ops.map TimedOp.op)) packets ∧
      packets.flatten.map TickPacket.kind = (List.range packets.flatten.length).map
        (expectedPacket (bootstrapChunkCount cfg
          (sessionRun cfg (Session.start cfg) (ops.map TimedOp.op)).server)) ∧
      (keepaliveTimes ((tickTimes ops).zip packets)).IsChain
        fun a b => a + cfg.keepaliveIntervalTicks.toNat ≤ b := by
  have hstart : SpacedSession cfg (Session.start cfg) [] :=
    ⟨consistent_mcServerInit cfg, [], rfl, .nil, sent_nil (progress_zero rfl rfl rfl rfl),
      .nil rfl rfl 0⟩
  obtain ⟨_, packets, _, hticks, hsent, hspaced⟩ := hstart.run htimes hstamps
  exact ⟨packets, hticks, hsent.kinds, hspaced.spaced⟩

instance (cfg : McConfig) (server : McServer) (time : ℕ) :
    Decidable (ZeroStampExpired cfg server time) :=
  inferInstanceAs (Decidable (server.lastKeepaliveTick = 0 → _ ∨ _))

instance decidableStampsExpired (cfg : McConfig) :
    (session : Session) → (ops : List TimedOp) → Decidable (StampsExpired cfg session ops)
  | _, [] => .isTrue trivial
  | session, op :: ops =>
    have := decidableStampsExpired cfg (sessionStep cfg session op.op) ops
    match op with
    | .tickAt time tx => decidable_of_iff (ZeroStampExpired cfg session.server time ∧
        StampsExpired cfg (sessionStep cfg session (TimedOp.tickAt time tx).op) ops)
        (and_congr_left' ⟨fun h _ ht => Option.some.inj ht ▸ h, fun h => h time rfl⟩)
    | .receive bytes tx => decidable_of_iff
        (StampsExpired cfg (sessionStep cfg session (TimedOp.receive bytes tx).op) ops)
        ⟨fun h => ⟨nofun, h⟩, fun h => h.2⟩
    | .takeTxReset => decidable_of_iff
        (StampsExpired cfg (sessionStep cfg session TimedOp.takeTxReset.op) ops)
        ⟨fun h => ⟨nofun, h⟩, fun h => h.2⟩

/-- A build with a compressed map of nine chunks and an interval of ten seconds. -/
def mapConfig : McConfig where
  protocolCompressionEnable := true
  usePsramCompressedMap := true
  compressionThreshold := 8192
  keepaliveIntervalTicks := 720000000
  compressedAssets := worldSpawnChunks.map fun (x, z) => ⟨x, z, 12562, [0x78, 0xda]⟩
  compressedTotalBytes := 18
  compressedArenaLen := 8388608
  psram_requires := fun _ => rfl
  threshold_pos := compressionConfig.threshold_pos
  interval_pos := compressionConfig.interval_pos

/-- A login, ten ticks in a row from `time` on that send the map, and one at `last`; each of them
finds an empty ring. -/
def mapOps (time last : ℕ) : List TimedOp :=
  [.receive (handshakeFrame.lengthBytes ++ handshakeFrame.body) ⟨.init 49152, []⟩,
    .receive (loginStartFrame.lengthBytes ++ loginStartFrame.body) ⟨.init 49152, []⟩] ++
  (List.range 10).map (fun i => .tickAt (time + i) ⟨.init 49152, []⟩) ++
  [.tickAt last ⟨.init 49152, []⟩]

/-- KeepAlives at 2 ^ 32 + 1 and an interval later. -/
theorem sessionRun_keepaliveSpacing_wrap :
    ∃ packets : List (List TickPacket),
      TicksSent mapConfig (sessionRun mapConfig (Session.start mapConfig)
        ((mapOps (2 ^ 32 - 8) (2 ^ 32 + 720000001)).map TimedOp.op)) packets ∧
      packets.flatten.map TickPacket.kind = (List.range packets.flatten.length).map
        (expectedPacket (bootstrapChunkCount mapConfig
          (sessionRun mapConfig (Session.start mapConfig)
            ((mapOps (2 ^ 32 - 8) (2 ^ 32 + 720000001)).map TimedOp.op)).server)) ∧
      (keepaliveTimes ((tickTimes (mapOps (2 ^ 32 - 8) (2 ^ 32 + 720000001))).zip
        packets)).IsChain fun a b => a + mapConfig.keepaliveIntervalTicks.toNat ≤ b :=
  sessionRun_keepaliveSpacing mapConfig _ (by decide +kernel) (by decide +kernel)

/-- The session's first KeepAlive is sent at 2 ^ 32, and the next one at the very next tick. -/
theorem sessionRun_keepaliveTwice :
    (tickTimes (mapOps (2 ^ 32 - 9) (2 ^ 32 + 1))).drop 9 = [2 ^ 32, 2 ^ 32 + 1] ∧
      ((sessionRun mapConfig (Session.start mapConfig)
          ((mapOps (2 ^ 32 - 9) (2 ^ 32 + 1)).map TimedOp.op)).ticks.drop 9).map
          (fun tick => (tick.1.ring.items, tick.2.ring.items)) =
        [([], [4, 0x92, 0x62, 0x78, 0xda, 3, 0, 0, 1]), ([], [3, 0, 0, 2])] ∧
      ¬ 2 ^ 32 + mapConfig.keepaliveIntervalTicks.toNat ≤ 2 ^ 32 + 1 := by
  decide +kernel

end StarrySky.Core
