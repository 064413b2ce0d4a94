import StarrySky.Core.ServerSteps

/-! What holds of the server in every state that it can reach. -/

namespace StarrySky.Core
open StarrySky.Base

variable {cfg : McConfig} {server : McServer} {tx : TxRing}

/-- The calls made to a server. Between them the ring may have changed in any way. -/
inductive ServerOp
  | init
  | receive (bytes : List UInt8) (tx : TxRing)
  | tickAt (nowTicks : UInt32) (tx : TxRing)
  | takeTxReset

def serverStep (cfg : McConfig) (server : McServer) : ServerOp → McServer
  | .init => mcServerInit cfg
  | .receive bytes tx => (mcServerReceive cfg server bytes tx).2.1
  | .tickAt nowTicks tx => (mcServerTickAt cfg server tx nowTicks).2.1
  | .takeTxReset => (mcServerTakeTxReset server).2

def serverRun (cfg : McConfig) : McServer → List ServerOp → McServer
  | server, [] => server
  | server, op :: ops => serverRun cfg (serverStep cfg server op) ops

/-- A C string of 1 to 16 bytes in an array of characters. -/
def IsUsername (chars : List UInt8) : Prop :=
  ∃ name rest, chars = name ++ 0 :: rest ∧ 0 ∉ name ∧ 1 ≤ name.length ∧
    name.length ≤ mcMaxUsername

/-- The invariant, but for the accumulator's length. -/
structure McServer.Consistent (cfg : McConfig) (server : McServer) : Prop where
  stage : server.playBootstrapStage ≤ mcBootstrapDone
  bootstrapSent : server.playBootstrapSent = true →
    server.state = .play ∧ server.playBootstrapStage = mcBootstrapDone
  compression : cfg.protocolCompressionEnable = true →
    (server.compressionEnabled = true ↔ server.state = .play)
  username : server.state = .play → IsUsername server.username
  worldTime : server.worldTime ≤ 24000
  weather : server.weather = .clear ∨ server.weather = .rain ∨ server.weather = .thunder
  keepaliveId : 0 ≤ server.keepaliveId
  keepalivePending : server.keepalivePending = true → server.playBootstrapSent = true
  chunkIndex : server.playBootstrapChunkIndex ≤ bootstrapChunkCount cfg server
  -- outside the play state no tick has sent anything
  notPlay : server.state ≠ .play → server.playBootstrapStage = 0 ∧
    server.playBootstrapChunkIndex = 0 ∧ server.playBootstrapSent = false ∧ server.keepaliveId = 0

theorem isUsername_login {text : List UInt8} (htext : text.length ≤ mcMaxUsername)
    (hname : cString text ≠ []) : IsUsername (text ++ [0]) := by
  have hsplit : cString text ++ text.dropWhile (· ≠ 0) = text := List.takeWhile_append_dropWhile
  have hmem : (0 : UInt8) ∉ cString text := by
    intro hzero
    have := List.mem_takeWhile_imp hzero
    simp at this
  have hlength : (cString text).length ≤ mcMaxUsername :=
    (List.takeWhile_prefix _).length_le.trans htext
  have hpos : 1 ≤ (cString text).length := List.length_pos_of_ne_nil hname
  cases hrest : text.dropWhile (· ≠ 0) with
  | nil =>
    rw [hrest, List.append_nil] at hsplit
    exact ⟨cString text, [], by rw [hsplit], hmem, hpos, hlength⟩
  | cons byte rest =>
    have hzero : byte = 0 := by
      have hhead := List.head?_dropWhile_not (fun b : UInt8 => b ≠ 0) text
      rw [hrest] at hhead
      simpa using hhead
    rw [hrest, hzero] at hsplit
    refine ⟨cString text, rest ++ [0], ?_, hmem, hpos, hlength⟩
    nth_rewrite 1 [← hsplit]
    simp

theorem action_mcCopyChat {action : McCommandAction} {text : List UInt8}
    {result : McCommandResult} (h : mcCopyChat action text = some result) :
    result.action = action := by
  simp only [mcCopyChat, Option.bind_eq_bind, Option.bind_eq_some_iff] at h
  obtain ⟨_, _, h⟩ := h
  rw [← Option.some.inj h]

theorem action_mcPlainChat {username message : List UInt8} {result : McCommandResult}
    (h : mcPlainChat username message = some result) : result.action = .chat := by
  simp only [mcPlainChat, Option.bind_eq_bind, Option.bind_eq_some_iff] at h
  obtain ⟨_, _, _, _, _, _, _, _, h⟩ := h
  rw [← Option.some.inj h]

theorem action_mcHandlePos {ctx : McCommandContext} {result : McCommandResult}
    (h : mcHandlePos ctx = some result) : result.action = .chat := by
  unfold mcHandlePos at h
  split at h
  · simp only [Option.bind_eq_bind, Option.bind_eq_some_iff] at h
    obtain ⟨_, _, _, _, _, _, _, _, _, _, _, _, _, _, _, _, _, _, _, _, h⟩ := h
    rw [← Option.some.inj h]
  · exact action_mcCopyChat h

theorem action_mcTimeResult {ticks : Int32} {result : McCommandResult}
    (h : mcTimeResult ticks = some result) : result.action = .time ticks := by
  simp only [mcTimeResult, Option.bind_eq_bind, Option.bind_eq_some_iff] at h
  obtain ⟨_, _, _, _, _, _, h⟩ := h
  rw [← Option.some.inj h]

theorem action_mcWeatherResult {weather : McWeather} {name : String} {result : McCommandResult}
    (h : mcWeatherResult weather name = some result) : result.action = .weather weather := by
  simp only [mcWeatherResult, Option.bind_eq_bind, Option.bind_eq_some_iff] at h
  obtain ⟨_, _, _, _, _, _, h⟩ := h
  rw [← Option.some.inj h]

/-- A result that sets the time sets it to a tick of the day. -/
def TimeInRange (result : McCommandResult) : Prop :=
  ∀ timeOfDay, result.action = .time timeOfDay → 0 ≤ timeOfDay ∧ timeOfDay ≤ 24000

theorem timeInRange_of_ne {result : McCommandResult} {action : McCommandAction}
    (h : result.action = action) (hne : ∀ t, action ≠ .time t) : TimeInRange result :=
  fun t ht => absurd (h.symm.trans ht) (hne t)

theorem timeInRange_mcSetChat {text : String} {result : McCommandResult}
    (h : mcSetChat text = some result) : TimeInRange result :=
  timeInRange_of_ne (action_mcCopyChat h) (by simp)

theorem timeInRange_mcTimeResult {ticks : Int32} {result : McCommandResult}
    (hticks : 0 ≤ ticks ∧ ticks ≤ 24000) (h : mcTimeResult ticks = some result) :
    TimeInRange result := by
  intro t ht
  rw [action_mcTimeResult h] at ht
  rw [← McCommandAction.time.inj ht]
  exact hticks

theorem timeInRange_mcHandleTime {tokens : List (List UInt8)} {result : McCommandResult}
    (h : mcHandleTime tokens = some result) : TimeInRange result := by
  unfold mcHandleTime at h
  split at h
  · split_ifs at h
    · exact timeInRange_mcTimeResult (by decide) h
    · exact timeInRange_mcTimeResult (by decide) h
    · exact timeInRange_mcTimeResult (by decide) h
    · exact timeInRange_mcTimeResult (by decide) h
    · split at h
      · exact timeInRange_mcSetChat h
      · split_ifs at h with hrange
        · exact timeInRange_mcSetChat h
        · rw [not_or] at hrange
          exact timeInRange_mcTimeResult
            ⟨Int32.not_lt.mp hrange.1, Int32.not_lt.mp hrange.2⟩ h
  · exact timeInRange_mcSetChat h

theorem timeInRange_mcHandleWeather {tokens : List (List UInt8)} {result : McCommandResult}
    (h : mcHandleWeather tokens = some result) : TimeInRange result := by
  unfold mcHandleWeather at h
  split at h
  · split_ifs at h
    · exact timeInRange_of_ne (action_mcWeatherResult h) (by simp)
    · exact timeInRange_of_ne (action_mcWeatherResult h) (by simp)
    · exact timeInRange_of_ne (action_mcWeatherResult h) (by simp)
    · exact timeInRange_mcSetChat h
  · exact timeInRange_mcSetChat h

theorem timeInRange_mcHandleTp {tokens : List (List UInt8)} {ctx : McCommandContext}
    {result : McCommandResult} (h : mcHandleTp tokens ctx = some result) : TimeInRange result := by
  unfold mcHandleTp at h
  split at h
  · split at h
    · split_ifs at h
      · exact timeInRange_mcSetChat h
      · exact timeInRange_of_ne (action_mcCopyChat h) (by simp)
    · exact timeInRange_mcSetChat h
  · exact timeInRange_mcSetChat h

theorem timeInRange_mcCommandsHandleChat {username message : List UInt8} {ctx : McCommandContext}
    {result : McCommandResult} (h : mcCommandsHandleChat username message ctx = some result) :
    TimeInRange result := by
  unfold mcCommandsHandleChat at h
  split_ifs at h
  · exact timeInRange_of_ne (action_mcPlainChat h) (by simp)
  · dsimp only at h
    split at h
    · exact timeInRange_mcSetChat h
    · split_ifs at h
      · exact timeInRange_mcSetChat h
      · exact timeInRange_mcSetChat h
      · exact timeInRange_mcSetChat h
      · exact timeInRange_mcSetChat h
      · exact timeInRange_of_ne (action_mcCopyChat h) (by simp)
      · exact timeInRange_mcHandleTp h
      · exact timeInRange_mcSetChat h
      · exact timeInRange_of_ne (action_mcHandlePos h) (by simp)
      · exact timeInRange_mcHandleTime h
      · exact timeInRange_mcHandleWeather h
      · exact timeInRange_mcSetChat h

theorem consistent_mcServerInit (cfg : McConfig) : (mcServerInit cfg).Consistent cfg where
  stage := Nat.zero_le _
  bootstrapSent h := absurd h (by simp [mcServerInit, resetPlayRuntimeState])
  compression _ := by simp [mcServerInit, resetPlayRuntimeState]
  username h := absurd h (by simp [mcServerInit, resetPlayRuntimeState])
  worldTime := by
    show (6000 : Int32) ≤ 24000
    decide
  weather := .inl rfl
  keepaliveId := by
    show (0 : Int32) ≤ 0
    decide
  keepalivePending h := absurd h (by simp [mcServerInit, resetPlayRuntimeState])
  chunkIndex := Nat.zero_le _
  notPlay _ := ⟨rfl, rfl, rfl, rfl⟩

theorem consistent_resetLogicalSession (cfg : McConfig) (server : McServer) {next : McConnState}
    (hnext : next ≠ .play) :
    ({ resetLogicalSession cfg server with state := next } : McServer).Consistent cfg where
  stage := Nat.zero_le _
  bootstrapSent h := absurd h (by simp [resetLogicalSession, resetPlayRuntimeState])
  compression _ := by simp [resetLogicalSession, resetPlayRuntimeState, hnext]
  username h := absurd h hnext
  worldTime := by
    show (6000 : Int32) ≤ 24000
    decide
  weather := .inl rfl
  keepaliveId := by
    show (0 : Int32) ≤ 0
    decide
  keepalivePending h := absurd h (by simp [resetLogicalSession, resetPlayRuntimeState])
  chunkIndex := Nat.zero_le _
  notPlay _ := ⟨rfl, rfl, rfl, rfl⟩

theorem McServer.Consistent.withAccum (h : server.Consistent cfg) (rxAccum : List UInt8) :
    ({ server with rxAccum := rxAccum } : McServer).Consistent cfg :=
  ⟨h.stage, h.bootstrapSent, h.compression, h.username, h.worldTime, h.weather, h.keepaliveId,
    h.keepalivePending, h.chunkIndex, h.notPlay⟩

theorem McServer.Consistent.login (h : server.Consistent cfg) (hstate : server.state = .login)
    {compressionEnabled : Bool}
    (hcompression : cfg.protocolCompressionEnable = true → compressionEnabled = true)
    {text : List UInt8} (htext : text.length ≤ mcMaxUsername) (hname : cString text ≠ []) :
    ({ server with
        compressionEnabled := compressionEnabled, username := text ++ [0]
        state := .play } : McServer).Consistent cfg := by
  obtain ⟨-, hindex, hsent, -⟩ := h.notPlay (by rw [hstate]; decide)
  constructor
  · exact h.stage
  · intro hsent'
    exact absurd (hsent.symm.trans hsent') (by decide)
  · intro hcfg
    exact iff_of_true (hcompression hcfg) rfl
  · intro _
    exact isUsername_login htext hname
  · exact h.worldTime
  · exact h.weather
  · exact h.keepaliveId
  · exact h.keepalivePending
  · show server.playBootstrapChunkIndex ≤ _
    rw [hindex]
    exact Nat.zero_le _
  · intro hplay
    exact absurd rfl hplay

theorem McServer.Consistent.applyCommandResult (h : server.Consistent cfg)
    {result : McCommandResult} (htime : TimeInRange result) :
    (applyCommandResult server result).Consistent cfg := by
  obtain ⟨action, chat⟩ := result
  cases action with
  | chat => exact h
  | teleport position =>
    exact ⟨h.stage, h.bootstrapSent, h.compression, h.username, h.worldTime, h.weather,
      h.keepaliveId, h.keepalivePending, h.chunkIndex, h.notPlay⟩
  | time timeOfDay =>
    exact ⟨h.stage, h.bootstrapSent, h.compression, h.username, (htime timeOfDay rfl).2, h.weather,
      h.keepaliveId, h.keepalivePending, h.chunkIndex, h.notPlay⟩
  | weather weather =>
    refine ⟨h.stage, h.bootstrapSent, h.compression, h.username, h.worldTime, ?_, h.keepaliveId,
      h.keepalivePending, h.chunkIndex, h.notPlay⟩
    cases weather with
    | clear => exact .inl rfl
    | rain => exact .inr (.inl rfl)
    | thunder => exact .inr (.inr rfl)

theorem McServer.Consistent.packetStep (h : server.Consistent cfg)
    {result : Bool × McServer × TxRing} (hstep : PacketStep cfg server tx result) :
    result.2.1.Consistent cfg := by
  cases hstep with
  | reject => exact h
  | ignore => exact h
  | acceptHandshake hstate next hnext =>
    apply consistent_resetLogicalSession
    rcases hnext with rfl | rfl <;> decide
  | badNextState hstate =>
    exact consistent_resetLogicalSession cfg server (show McConnState.handshake ≠ .play by decide)
  | answerStatus hstate id hid rest hfits => exact h
  | loginCompressed hcfg hstate text htext hname success hsuccess hfits =>
    exact h.login hstate (fun _ => rfl) htext hname
  | loginPlain hcfg hstate text htext hname success hsuccess hfits =>
    exact h.login hstate (fun hcfg' => absurd (hcfg.symm.trans hcfg') (by decide)) htext hname
  | keepalive hstate =>
    exact ⟨h.stage, h.bootstrapSent, h.compression, h.username, h.worldTime, h.weather,
      h.keepaliveId, fun hpending => absurd hpending Bool.false_ne_true, h.chunkIndex, h.notPlay⟩
  | movement hstate player onGround =>
    exact ⟨h.stage, h.bootstrapSent, h.compression, h.username, h.worldTime, h.weather,
      h.keepaliveId, h.keepalivePending, h.chunkIndex, h.notPlay⟩
  | chat hstate message result hresult packets hpackets hbodies hfits =>
    exact h.applyCommandResult (timeInRange_mcCommandsHandleChat hresult)

theorem McServer.Consistent.receive (h : server.Consistent cfg) (bytes : List UInt8) (tx : TxRing) :
    (mcServerReceive cfg server bytes tx).2.1.Consistent cfg :=
  mcServerReceive_preserves (P := fun server _ => server.Consistent cfg)
    (fun server body tx h => h.packetStep (handlePacket_step cfg server body tx))
    (fun _ rxAccum _ h => h.withAccum rxAccum) bytes h

/-! The accumulator's length. -/

theorem length_accumulate_le {rxAccum bytes rxAccum' : List UInt8}
    (h : accumulate rxAccum bytes = some rxAccum') (hlength : rxAccum.length ≤ mcRxAccumSize) :
    rxAccum'.length ≤ mcRxAccumSize := by
  induction bytes generalizing rxAccum with
  | nil =>
    rw [accumulate] at h
    rwa [← Option.some.inj h]
  | cons byte bytes ih =>
    rw [accumulate] at h
    split_ifs at h with hfull
    apply ih h
    rw [List.length_append, List.length_singleton]
    omega

theorem length_rxAccum_receiveLoop_le (cfg : McConfig) (server : McServer) (rxAccum : List UInt8)
    (tx : TxRing) : (receiveLoop cfg server rxAccum tx).2.1.rxAccum.length ≤ rxAccum.length := by
  induction hn : rxAccum.length using Nat.strong_induction_on generalizing server rxAccum tx with
  | _ n ih =>
  rw [receiveLoop]
  cases classifyFrame rxAccum with
  | needMore =>
    dsimp only
    split_ifs
    · exact Nat.zero_le _
    · exact hn.le
  | invalid => exact Nat.zero_le _
  | ready frameLen =>
    dsimp only
    split
    case h_1 => exact Nat.zero_le _
    case h_2 packet hread =>
      cases unwrapPacket server packet with
      | none => exact Nat.zero_le _
      | some body =>
        dsimp only
        split_ifs
        · exact Nat.zero_le _
        · obtain ⟨hne, hpos⟩ := frameLen_pos hread
          have hlength := List.length_pos_of_ne_nil hne
          have hshorter : (rxAccum.drop packet.frameLen).length < n := by
            rw [List.length_drop]
            omega
          exact (ih _ hshorter _ _ _ rfl).trans hshorter.le

theorem length_rxAccum_mcServerReceive_le (hlength : server.rxAccum.length ≤ mcRxAccumSize)
    (bytes : List UInt8) (tx : TxRing) :
    (mcServerReceive cfg server bytes tx).2.1.rxAccum.length ≤ mcRxAccumSize := by
  rw [mcServerReceive]
  cases haccum : accumulate server.rxAccum bytes with
  | none => exact Nat.zero_le _
  | some rxAccum =>
    exact (length_rxAccum_receiveLoop_le cfg server rxAccum tx).trans
      (length_accumulate_le haccum hlength)

/-! Ticks. -/

theorem index_lt_of_chunkFrame {index : ℕ} {frame : List UInt8}
    (h : chunkFrame cfg server index = some frame) : index < bootstrapChunkCount cfg server := by
  unfold chunkFrame at h
  unfold bootstrapChunkCount
  split_ifs at h ⊢ with hpsram
  · obtain ⟨chunk, hchunk, _⟩ := Option.map_eq_some_iff.mp h
    rw [mcWorldCompressedChunk, if_pos hpsram.1] at hchunk
    rw [mcWorldCompressedChunkCount, if_pos hpsram.1]
    exact (List.getElem?_eq_some_iff.mp hchunk).1
  · obtain ⟨chunk, hchunk, _⟩ := Option.bind_eq_some_iff.mp h
    exact (List.getElem?_eq_some_iff.mp hchunk).1

theorem frame_bootstrapPacket_chunks (hstage : server.playBootstrapStage = mcBootstrapChunks) :
    (bootstrapPacket server).frame cfg server =
      chunkFrame cfg server server.playBootstrapChunkIndex := by
  unfold bootstrapPacket
  rw [hstage]
  rfl

theorem McServer.Consistent.afterBootstrapPacket (h : server.Consistent cfg)
    (hplay : server.state = .play) (hsent : server.playBootstrapSent = false)
    (hstage : server.playBootstrapStage < mcBootstrapDone) {frame : List UInt8}
    (hframe : (bootstrapPacket server).frame cfg server = some frame) :
    (afterBootstrapPacket cfg server).Consistent cfg := by
  unfold StarrySky.Core.afterBootstrapPacket
  by_cases hchunks : server.playBootstrapStage = mcBootstrapChunks
  · rw [if_pos hchunks]
    rw [frame_bootstrapPacket_chunks hchunks] at hframe
    constructor
    · dsimp only
      split_ifs
      · exact h.stage
      · exact hstage
    · intro hsent'
      exact absurd (hsent.symm.trans hsent') Bool.false_ne_true
    · exact h.compression
    · exact h.username
    · exact h.worldTime
    · exact h.weather
    · exact h.keepaliveId
    · exact h.keepalivePending
    · exact Nat.succ_le_of_lt (index_lt_of_chunkFrame hframe)
    · intro hstate
      exact absurd hplay hstate
  · rw [if_neg hchunks]
    constructor
    · exact hstage
    · intro hsent'
      exact absurd (hsent.symm.trans hsent') Bool.false_ne_true
    · exact h.compression
    · exact h.username
    · exact h.worldTime
    · exact h.weather
    · exact h.keepaliveId
    · exact h.keepalivePending
    · exact h.chunkIndex
    · intro hstate
      exact absurd hplay hstate

theorem nextKeepaliveId_pos (h : 0 ≤ server.keepaliveId) : 0 < nextKeepaliveId server := by
  -- The id starts again at 1 where it would overflow.
  rw [nextKeepaliveId]
  split_ifs with hmax
  · decide
  · rw [ge_iff_le, Int32.le_iff_toInt_le, Int32.toInt_maxValue] at hmax
    rw [Int32.le_iff_toInt_le, Int32.toInt_zero] at h
    rw [Int32.lt_iff_toInt_lt, Int32.toInt_zero, Int32.toInt_add, Int32.toInt_one]
    rw [Int.bmod_eq_of_le (by omega) (by omega)]
    omega

theorem McServer.Consistent.tickAt (h : server.Consistent cfg) (tx : TxRing) (nowTicks : UInt32) :
    (mcServerTickAt cfg server tx nowTicks).2.1.Consistent cfg := by
  apply mcServerTickAt_preserves (P := fun server _ => server.Consistent cfg) (h := h)
  case hticks =>
    intro server ticks _ h
    exact ⟨h.stage, h.bootstrapSent, h.compression, h.username, h.worldTime, h.weather,
      h.keepaliveId, h.keepalivePending, h.chunkIndex, h.notPlay⟩
  case hpacket =>
    intro server _ frame h hplay hsent hstage hframe _
    exact h.afterBootstrapPacket hplay hsent hstage hframe
  case hdone =>
    intro server _ h hplay hstage
    exact ⟨h.stage, fun _ => ⟨hplay, Nat.le_antisymm h.stage hstage⟩, h.compression, h.username,
      h.worldTime, h.weather, h.keepaliveId, fun _ => rfl, h.chunkIndex,
      fun hstate => absurd hplay hstate⟩
  case hkeepalive =>
    intro server _ frame h hplay hsent _ _
    exact ⟨h.stage, h.bootstrapSent, h.compression, h.username, h.worldTime, h.weather,
      Int32.le_of_lt (nextKeepaliveId_pos h.keepaliveId), fun _ => hsent, h.chunkIndex,
      fun hstate => absurd hplay hstate⟩

theorem McServer.Consistent.takeTxReset (h : server.Consistent cfg) :
    (mcServerTakeTxReset server).2.Consistent cfg :=
  ⟨h.stage, h.bootstrapSent, h.compression, h.username, h.worldTime, h.weather, h.keepaliveId,
    h.keepalivePending, h.chunkIndex, h.notPlay⟩

theorem rxAccum_mcServerTickAt (cfg : McConfig) (server : McServer) (tx : TxRing)
    (nowTicks : UInt32) : (mcServerTickAt cfg server tx nowTicks).2.1.rxAccum = server.rxAccum := by
  apply mcServerTickAt_preserves (P := fun s _ => s.rxAccum = server.rxAccum) (h := rfl)
  case hticks =>
    intro s ticks _ h
    exact h
  case hpacket =>
    intro s _ frame h _ _ _ _ _
    rw [← h]
    unfold StarrySky.Core.afterBootstrapPacket
    split_ifs <;> rfl
  case hdone =>
    intro s _ h _ _
    exact h
  case hkeepalive =>
    intro s _ frame h _ _ _ _
    exact h

theorem McServer.Consistent.serverStep (h : server.Consistent cfg) (op : ServerOp) :
    (serverStep cfg server op).Consistent cfg := by
  cases op with
  | init => exact consistent_mcServerInit cfg
  | receive bytes tx => exact h.receive bytes tx
  | tickAt nowTicks tx => exact h.tickAt tx nowTicks
  | takeTxReset => exact h.takeTxReset

theorem length_rxAccum_serverStep_le (h : server.rxAccum.length ≤ mcRxAccumSize) (op : ServerOp) :
    (serverStep cfg server op).rxAccum.length ≤ mcRxAccumSize := by
  cases op with
  | init => exact Nat.zero_le _
  | receive bytes tx => exact length_rxAccum_mcServerReceive_le h bytes tx
  | tickAt nowTicks tx =>
    rw [StarrySky.Core.serverStep, rxAccum_mcServerTickAt]
    exact h
  | takeTxReset => exact h

theorem serverRun_preserves {P : McServer → Prop}
    (hstep : ∀ server op, P server → P (serverStep cfg server op)) (ops : List ServerOp)
    (h : P server) : P (serverRun cfg server ops) := by
  induction ops generalizing server with
  | nil => exact h
  | cons op ops ih => exact ih (hstep server op h)

/-- Every state that can be reached is consistent. -/
theorem serverRun_consistent (cfg : McConfig) (ops : List ServerOp) :
    (serverRun cfg (mcServerInit cfg) ops).Consistent cfg ∧
      (serverRun cfg (mcServerInit cfg) ops).rxAccum.length ≤ mcRxAccumSize := by
  constructor
  · exact serverRun_preserves (fun server op h => h.serverStep op) ops (consistent_mcServerInit cfg)
  · exact serverRun_preserves (P := fun server => server.rxAccum.length ≤ mcRxAccumSize)
      (fun server op h => length_rxAccum_serverStep_le h op) ops (Nat.zero_le _)

end StarrySky.Core
