import StarrySky.Core.ReceiveCalls

/-! Handshakes that are rejected. `reset_logical_session` runs before the next state is
checked. -/

namespace StarrySky.Core
open StarrySky.Base

variable {cfg : McConfig} {server : McServer} {tx : TxRing} {body : List UInt8}

/-- The next state that a packet asks for, if it is a handshake to its last byte. -/
def handshakeNextState (body : List UInt8) : Option Int32 :=
  match readVarintBody body 0 with
  | none => none
  | some (packetId, pos) => if packetId ≠ 0 then none else readHandshake body pos

theorem tryHandleHandshake_none (h : handshakeNextState body = none) :
    (tryHandleHandshake cfg server body).1 ≠ .accepted ∧
      (tryHandleHandshake cfg server body).2 = server := by
  rw [handshakeNextState] at h
  rw [tryHandleHandshake]
  cases hread : readVarintBody body 0 with
  | none => exact ⟨McHandshakeResult.noConfusion, rfl⟩
  | some read =>
    obtain ⟨packetId, pos⟩ := read
    rw [hread] at h
    dsimp only at h ⊢
    by_cases hid : packetId ≠ 0
    · rw [if_pos hid]
      exact ⟨McHandshakeResult.noConfusion, rfl⟩
    · rw [if_neg hid] at h ⊢
      rw [h]
      exact ⟨McHandshakeResult.noConfusion, rfl⟩

theorem tryHandleHandshake_some {nextState : Int32} (h : handshakeNextState body = some nextState) :
    tryHandleHandshake cfg server body =
      if nextState = 1 then (.accepted, { resetLogicalSession cfg server with state := .status })
      else if nextState = 2 then
        (.accepted, { resetLogicalSession cfg server with state := .login })
      else (.invalid, resetLogicalSession cfg server) := by
  rw [handshakeNextState] at h
  rw [tryHandleHandshake]
  cases hread : readVarintBody body 0 with
  | none =>
    rw [hread] at h
    cases h
  | some read =>
    obtain ⟨packetId, pos⟩ := read
    rw [hread] at h
    dsimp only at h ⊢
    by_cases hid : packetId ≠ 0
    · rw [if_pos hid] at h
      cases h
    · rw [if_neg hid] at h ⊢
      rw [h]

/-- The session as a rejected handshake should leave it. -/
def KeepsSession (cfg : McConfig) (server : McServer) (body : List UInt8) (tx : TxRing) : Prop :=
  ((handlePacket cfg server body tx).1 = false → (handlePacket cfg server body tx).2 = (server, tx)) ∧
    ((tryHandleHandshake cfg server body).1 ≠ .accepted →
      (tryHandleHandshake cfg server body).2 = server)

/-- A handshake but for its next state. -/
def AsksForOtherState (body : List UInt8) : Prop :=
  ∃ nextState, handshakeNextState body = some nextState ∧ nextState ≠ 1 ∧ nextState ≠ 2

/-- Outside PLAY a reset changes nothing but the state and the request to empty the ring. -/
def FreshUnlessPlay (cfg : McConfig) (server : McServer) : Prop :=
  server.state ≠ .play →
    resetLogicalSession cfg server = { server with state := .handshake, txResetRequested := true }

theorem PacketStep.unchanged_of_play {result : Bool × McServer × TxRing}
    (hstep : PacketStep cfg server tx result) (hplay : server.state = .play)
    (hfail : result.1 = false) : result.2 = (server, tx) := by
  cases hstep with
  | reject => rfl
  | badNextState hstate => exact absurd hplay hstate
  | ignore | acceptHandshake | answerStatus | loginCompressed | loginPlain | keepalive
  | movement | chat => exact absurd hfail.symm Bool.false_ne_true

theorem queueBuilt_false {w : Option McWriter}
    (h : (queueBuilt tx w mcServerQueuePacket).1 = false) :
    (queueBuilt tx w mcServerQueuePacket).2 = tx := by
  rcases queueBuilt_cases (fun body => mcServerQueuePacket_addsFrame tx body) with
    hfail | ⟨_, _, _, hpush⟩
  · rw [hfail]
  · rw [hpush] at h
    cases h

theorem handleLoginStart_false {pos : ℕ}
    (h : (handleLoginStart cfg server body pos tx).1 = false) :
    (handleLoginStart cfg server body pos tx).2 = (server, tx) := by
  rw [handleLoginStart] at h ⊢
  cases htext : readStringBody body pos (mcMaxUsername + 1) with
  | none => rfl
  | some read =>
    obtain ⟨text, pos'⟩ := read
    rw [htext] at h
    dsimp only at h ⊢
    by_cases hname : cString text = []
    · rw [if_pos hname]
    rw [if_neg hname] at h ⊢
    by_cases hcfg : cfg.protocolCompressionEnable = true
    · rw [if_pos hcfg] at h ⊢
      rcases queueCompressedLogin_cases server tx (cString text) with hfail | ⟨_, _, _, hpush⟩
      · rw [hfail]
        rfl
      · rw [hpush] at h
        cases h
    · rw [if_neg hcfg] at h ⊢
      have hqueue := @queueBuilt_false tx (buildLoginSuccessBody 128 (cString text))
      rw [← queueLoginSuccess] at hqueue
      cases hqueued : (queueLoginSuccess tx (cString text)).1
      · rw [hqueue hqueued]
        rfl
      · rw [hqueued] at h
        cases h

theorem handlePacketByState_false {packetId : Int32} {pos : ℕ}
    (h : (handlePacketByState cfg server packetId pos body tx).1 = false) :
    (handlePacketByState cfg server packetId pos body tx).2 = (server, tx) := by
  rw [handlePacketByState] at h ⊢
  dsimp only at h ⊢
  split_ifs at h ⊢ with hstatus hping hlogin hkeepalive hchat hmovement
  · exact congrArg (Prod.mk server) (queueBuilt_false h)
  · exact congrArg (Prod.mk server) (queueBuilt_false h)
  · exact handleLoginStart_false h
  · have hstep : PacketStep cfg server tx _ := handleKeepalive_step hkeepalive.1 body pos
    exact hstep.unchanged_of_play hkeepalive.1 h
  · exact (handleChat_step hchat.1 body pos).unchanged_of_play hchat.1 h
  · have hstep : PacketStep cfg server tx _ :=
      handlePlayMovement_step hmovement.1 packetId body pos
    exact hstep.unchanged_of_play hmovement.1 h

theorem handlePacket_false
    (htry : (tryHandleHandshake cfg server body).1 ≠ .accepted →
      (tryHandleHandshake cfg server body).2 = server)
    (h : (handlePacket cfg server body tx).1 = false) :
    (handlePacket cfg server body tx).2 = (server, tx) := by
  rw [handlePacket] at h ⊢
  cases hread : readVarintBody body 0 with
  | none => rfl
  | some read =>
    obtain ⟨packetId, pos⟩ := read
    rw [hread] at h
    dsimp only at h ⊢
    generalize tryHandleHandshake cfg server body = attempt at h htry ⊢
    obtain ⟨handshake, server'⟩ := attempt
    dsimp only at htry
    split_ifs at h ⊢ with hhandshake hother
    · cases handshake with
      | accepted => cases h
      | noMatch => exact congrArg (·, tx) (htry McHandshakeResult.noConfusion)
      | invalid => exact congrArg (·, tx) (htry McHandshakeResult.noConfusion)
    · cases handshake with
      | accepted => cases h
      | noMatch =>
        have hsame : server' = server := htry McHandshakeResult.noConfusion
        dsimp only at h ⊢
        rw [hsame] at h ⊢
        exact handlePacketByState_false h
      | invalid =>
        have hsame : server' = server := htry McHandshakeResult.noConfusion
        dsimp only at h ⊢
        rw [hsame] at h ⊢
        split_ifs at h ⊢
        · rfl
        · exact handlePacketByState_false h
    · exact handlePacketByState_false h

theorem freshUnlessPlay_of_reset (cfg : McConfig) (server : McServer) (next : McConnState) :
    FreshUnlessPlay cfg { resetLogicalSession cfg server with state := next } :=
  fun _ => rfl

theorem FreshUnlessPlay.packetStep (h : FreshUnlessPlay cfg server)
    {result : Bool × McServer × TxRing} (hstep : PacketStep cfg server tx result) :
    FreshUnlessPlay cfg result.2.1 := by
  cases hstep with
  | reject => exact h
  | ignore => exact h
  | acceptHandshake hstate next hnext => exact freshUnlessPlay_of_reset cfg server next
  | badNextState hstate => exact freshUnlessPlay_of_reset cfg server .handshake
  | answerStatus hstate id hid rest hfits => exact h
  | loginCompressed => exact fun hplay => absurd rfl hplay
  | loginPlain => exact fun hplay => absurd rfl hplay
  | keepalive hplay => exact fun hstate => absurd hplay hstate
  | movement hplay player onGround => exact fun hstate => absurd hplay hstate
  | chat hplay message result hresult packets hpackets hbodies hfits =>
    intro hstate
    obtain ⟨action, chat⟩ := result
    cases action <;> exact absurd hplay hstate

theorem FreshUnlessPlay.serverStep (h : FreshUnlessPlay cfg server) (op : ServerOp) :
    FreshUnlessPlay cfg (serverStep cfg server op) := by
  cases op with
  | init => exact fun _ => rfl
  | receive bytes tx =>
    exact mcServerReceive_preserves (P := fun server _ => FreshUnlessPlay cfg server)
      (fun server body tx h => h.packetStep (handlePacket_step cfg server body tx))
      (fun server rxAccum _ h hstate =>
        congrArg (fun s : McServer => { s with rxAccum := rxAccum }) (h hstate)) bytes h
  | tickAt nowTicks tx =>
    apply mcServerTickAt_preserves (P := fun server _ => FreshUnlessPlay cfg server) (h := h)
    case hticks =>
      intro server ticks _ h hstate
      exact congrArg (fun s : McServer => { s with ticks := ticks }) (h hstate)
    case hpacket =>
      intro server _ frame h hplay _ _ _ _ hstate
      have hsame : (afterBootstrapPacket cfg server).state = server.state := by
        unfold afterBootstrapPacket
        split_ifs <;> rfl
      exact absurd (hsame.trans hplay) hstate
    case hdone => exact fun _ _ _ hplay _ hstate => absurd hplay hstate
    case hkeepalive => exact fun _ _ _ _ hplay _ _ _ hstate => absurd hplay hstate
  | takeTxReset =>
    intro hstate
    have hreset := congrArg (fun s : McServer => { s with txResetRequested := true }) (h hstate)
    exact hreset

theorem freshUnlessPlay_serverRun (cfg : McConfig) (ops : List ServerOp) :
    FreshUnlessPlay cfg (serverRun cfg (mcServerInit cfg) ops) :=
  serverRun_preserves (fun _ op h => h.serverStep op) ops fun _ => rfl

/-- A rejected handshake leaves the session as it was, but for one that asks for a next state
other than 1 and 2. -/
theorem keepsSession_iff (cfg : McConfig) (ops : List ServerOp) {server : McServer}
    (hserver : server = serverRun cfg (mcServerInit cfg) ops) (hstate : server.state ≠ .play)
    (body : List UInt8) (tx : TxRing) :
    KeepsSession cfg server body tx ↔
      ¬ AsksForOtherState body ∨ server.state = .handshake ∧ server.txResetRequested = true := by
  have hfresh : resetLogicalSession cfg server =
      { server with state := .handshake, txResetRequested := true } := by
    rw [hserver] at hstate ⊢
    exact freshUnlessPlay_serverRun cfg ops hstate
  constructor
  · rintro ⟨-, htry⟩
    rw [or_iff_not_imp_left, not_not]
    rintro ⟨nextState, hnext, hone, htwo⟩
    rw [tryHandleHandshake_some hnext, if_neg hone, if_neg htwo] at htry
    have hreset : resetLogicalSession cfg server = server := htry nofun
    exact ⟨(congrArg McServer.state hreset).symm, (congrArg McServer.txResetRequested hreset).symm⟩
  · intro hcond
    have htry : (tryHandleHandshake cfg server body).1 ≠ .accepted →
        (tryHandleHandshake cfg server body).2 = server := by
      intro hrejected
      cases hnext : handshakeNextState body with
      | none => exact (tryHandleHandshake_none hnext).2
      | some nextState =>
        rw [tryHandleHandshake_some hnext] at hrejected ⊢
        split_ifs at hrejected ⊢ with hone htwo
        · exact absurd rfl hrejected
        · exact absurd rfl hrejected
        · rcases hcond with hasks | ⟨hhandshake, hrequested⟩
          · exact absurd ⟨nextState, hnext, hone, htwo⟩ hasks
          · exact hfresh.trans (by rw [← hhandshake, ← hrequested])
    exact ⟨handlePacket_false htry, htry⟩

theorem handshakeDone_reachable :
    handshakeDone.2.1 = serverRun compressionConfig (mcServerInit compressionConfig)
      [.receive handshakeFrame.bytes (streamStart compressionConfig 49152).2] := by
  rw [serverRun, serverRun, serverStep, mcServerReceive_frame _ rfl (by decide)]
  rfl

/-- A handshake for the next state 3. -/
def otherStateBody : List UInt8 := [0, 47, 1, 0x61, 0x63, 0xdd, 3]

theorem keepsSession_iff_login :
    KeepsSession compressionConfig handshakeDone.2.1 otherStateBody handshakeDone.2.2 ↔
      ¬ AsksForOtherState otherStateBody ∨
        handshakeDone.2.1.state = .handshake ∧ handshakeDone.2.1.txResetRequested = true :=
  keepsSession_iff compressionConfig _ handshakeDone_reachable (by decide +kernel) otherStateBody _

/-- In LOGIN it is answered with 0, and takes the session back to HANDSHAKE. -/
theorem keepsSession_otherState :
    (handlePacket compressionConfig handshakeDone.2.1 otherStateBody handshakeDone.2.2).1 = false ∧
      (handlePacket compressionConfig handshakeDone.2.1 otherStateBody
        handshakeDone.2.2).2.1.state = .handshake ∧
      handshakeDone.2.1.state = .login ∧
      ¬ KeepsSession compressionConfig handshakeDone.2.1 otherStateBody handshakeDone.2.2 := by
  have hfails : (handlePacket compressionConfig handshakeDone.2.1 otherStateBody
      handshakeDone.2.2).1 = false := by decide +kernel
  have hafter : (handlePacket compressionConfig handshakeDone.2.1 otherStateBody
      handshakeDone.2.2).2.1.state = .handshake := by decide +kernel
  have hbefore : handshakeDone.2.1.state = .login := by decide +kernel
  refine ⟨hfails, hafter, hbefore, ?_⟩
  rintro ⟨hkeeps, -⟩
  rw [hkeeps hfails] at hafter
  exact absurd (hbefore.symm.trans hafter) (by decide)

end StarrySky.Core
