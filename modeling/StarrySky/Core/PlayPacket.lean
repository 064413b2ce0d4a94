import StarrySky.Core.Handshake

/-! What a packet does in PLAY: all of its effect, or none of it. -/

namespace StarrySky.Core
open StarrySky.Base

variable {cfg : McConfig} {server : McServer} {tx : TxRing} {body : List UInt8}

/-- The bodies that carry out an action, without the message. -/
def actionBodies : McCommandAction → Option (List (List UInt8))
  | .chat => some []
  | .teleport position => (buildPositionBody 64 position).map fun w => [w.buf]
  | .time timeOfDay => (buildTimeBody 64 timeOfDay).map fun w => [w.buf]
  | .weather weather => (buildWeatherBodies weather).map fun ws => ws.map (·.buf)

def actionFrameCount : McCommandAction → ℕ
  | .chat => 0
  | .teleport _ => 1
  | .time _ => 1
  | .weather _ => 3

theorem length_of_mapM_eq_some {α β : Type} {f : α → Option β} {xs : List α} {ys : List β}
    (h : xs.mapM f = some ys) : ys.length = xs.length := by
  induction xs generalizing ys with
  | nil =>
    rw [← Option.some.inj h]
    rfl
  | cons x xs ih =>
    rw [List.mapM_cons] at h
    obtain ⟨y, _, h⟩ := Option.bind_eq_some_iff.mp h
    obtain ⟨zs, hzs, h⟩ := Option.bind_eq_some_iff.mp h
    rw [← Option.some.inj h, List.length_cons, List.length_cons, ih hzs]

theorem length_weatherBodies {weather : McWeather} {ws : List McWriter}
    (h : buildWeatherBodies weather = some ws) : ws.length = 3 := by
  have hlen : ws.length = (weatherGameStateValues weather).length := length_of_mapM_eq_some h
  cases weather <;> exact hlen

theorem commandResultBodies_cases {result : McCommandResult} {packets : List (List UInt8)}
    (h : commandResultBodies result = some packets) :
    ∃ action chat, actionBodies result.action = some action ∧
      buildChatBody (mcCommandTextCap * 6 + 32) result.chat = some chat ∧
      packets = action ++ [chat.buf] ∧ action.length = actionFrameCount result.action := by
  obtain ⟨chat, hchat, h⟩ := Option.bind_eq_some_iff.mp h
  obtain ⟨action, text⟩ := result
  cases action with
  | chat => exact ⟨[], chat, rfl, hchat, (Option.some.inj h).symm, rfl⟩
  | teleport position =>
    obtain ⟨w, hw, h⟩ := Option.bind_eq_some_iff.mp h
    exact ⟨[w.buf], chat, by rw [actionBodies, hw]; rfl, hchat, (Option.some.inj h).symm, rfl⟩
  | time timeOfDay =>
    obtain ⟨w, hw, h⟩ := Option.bind_eq_some_iff.mp h
    exact ⟨[w.buf], chat, by rw [actionBodies, hw]; rfl, hchat, (Option.some.inj h).symm, rfl⟩
  | weather weather =>
    obtain ⟨ws, hws, h⟩ := Option.bind_eq_some_iff.mp h
    refine ⟨ws.map (·.buf), chat, by rw [actionBodies, hws]; rfl, hchat,
      (Option.some.inj h).symm, ?_⟩
    rw [List.length_map]
    exact length_weatherBodies hws

/-- The bytes of a movement packet behind its id. -/
def movementLength (packetId : Int32) : ℕ :=
  if packetId = 0x03 then 1 else if packetId = 0x04 then 25 else if packetId = 0x05 then 9 else 33

def IsMovementId (packetId : Int32) : Prop :=
  packetId = 0x03 ∨ packetId = 0x04 ∨ packetId = 0x05 ∨ packetId = 0x06

theorem readBoolBody_eq_some {pos pos' : ℕ} {value : Bool}
    (h : readBoolBody body pos = some (value, pos')) : pos' = pos + 1 := by
  rw [readBoolBody] at h
  cases hbyte : body[pos]? with
  | none => simp [hbyte] at h
  | some byte =>
    rw [hbyte] at h
    exact (congrArg Prod.snd (Option.some.inj h)).symm

theorem readU32Body_eq_some {pos pos' : ℕ} {value : UInt32}
    (h : readU32Body body pos = some (value, pos')) : pos' = pos + 4 := by
  rw [readU32Body] at h
  split_ifs at h
  exact (congrArg Prod.snd (Option.some.inj h)).symm

theorem readU64Body_eq_some {pos pos' : ℕ} {value : UInt64}
    (h : readU64Body body pos = some (value, pos')) : pos' = pos + 8 := by
  rw [readU64Body] at h
  split_ifs at h
  exact (congrArg Prod.snd (Option.some.inj h)).symm

theorem readMovement_eq_some {packetId : Int32} {pos pos' : ℕ} {player player' : McCommandPosition}
    {onGround : Bool} (h : readMovement packetId body pos player = some (player', onGround, pos')) :
    pos' = pos + movementLength packetId ∧
      (packetId = 0x03 ∨ packetId = 0x05 →
        player'.x = player.x ∧ player'.y = player.y ∧ player'.z = player.z) ∧
      (packetId = 0x03 ∨ packetId = 0x04 →
        player'.yaw = player.yaw ∧ player'.pitch = player.pitch) := by
  rw [readMovement] at h
  split_ifs at h with hthree hfour hfive hsix
  · subst hthree
    obtain ⟨⟨ground, p₁⟩, h₁, h⟩ := Option.bind_eq_some_iff.mp h
    cases Option.some.inj h
    exact ⟨readBoolBody_eq_some h₁, fun _ => ⟨rfl, rfl, rfl⟩, fun _ => ⟨rfl, rfl⟩⟩
  · subst hfour
    obtain ⟨⟨x, p₁⟩, h₁, h⟩ := Option.bind_eq_some_iff.mp h
    obtain ⟨⟨y, p₂⟩, h₂, h⟩ := Option.bind_eq_some_iff.mp h
    obtain ⟨⟨z, p₃⟩, h₃, h⟩ := Option.bind_eq_some_iff.mp h
    obtain ⟨⟨ground, p₄⟩, h₄, h⟩ := Option.bind_eq_some_iff.mp h
    cases Option.some.inj h
    refine ⟨?_, fun hid => absurd hid (by decide), fun _ => ⟨rfl, rfl⟩⟩
    rw [readBoolBody_eq_some h₄, readU64Body_eq_some h₃, readU64Body_eq_some h₂,
      readU64Body_eq_some h₁]
    rfl
  · subst hfive
    obtain ⟨⟨yaw, p₁⟩, h₁, h⟩ := Option.bind_eq_some_iff.mp h
    obtain ⟨⟨pitch, p₂⟩, h₂, h⟩ := Option.bind_eq_some_iff.mp h
    obtain ⟨⟨ground, p₃⟩, h₃, h⟩ := Option.bind_eq_some_iff.mp h
    cases Option.some.inj h
    refine ⟨?_, fun _ => ⟨rfl, rfl, rfl⟩, fun hid => absurd hid (by decide)⟩
    rw [readBoolBody_eq_some h₃, readU32Body_eq_some h₂, readU32Body_eq_some h₁]
    rfl
  · subst hsix
    obtain ⟨⟨x, p₁⟩, h₁, h⟩ := Option.bind_eq_some_iff.mp h
    obtain ⟨⟨y, p₂⟩, h₂, h⟩ := Option.bind_eq_some_iff.mp h
    obtain ⟨⟨z, p₃⟩, h₃, h⟩ := Option.bind_eq_some_iff.mp h
    obtain ⟨⟨yaw, p₄⟩, h₄, h⟩ := Option.bind_eq_some_iff.mp h
    obtain ⟨⟨pitch, p₅⟩, h₅, h⟩ := Option.bind_eq_some_iff.mp h
    obtain ⟨⟨ground, p₆⟩, h₆, h⟩ := Option.bind_eq_some_iff.mp h
    cases Option.some.inj h
    refine ⟨?_, fun hid => absurd hid (by decide), fun hid => absurd hid (by decide)⟩
    rw [readBoolBody_eq_some h₆, readU32Body_eq_some h₅, readU32Body_eq_some h₄,
      readU64Body_eq_some h₃, readU64Body_eq_some h₂, readU64Body_eq_some h₁]
    rfl

theorem handlePacket_of_play (hplay : server.state = .play) {packetId : Int32} {pos : ℕ}
    (hread : readVarintBody body 0 = some (packetId, pos)) :
    handlePacket cfg server body tx = handlePacketByState cfg server packetId pos body tx := by
  rw [handlePacket, hread]
  dsimp only
  rw [if_neg fun h => absurd (hplay.symm.trans h.1) (by decide), if_neg fun h => h.1 hplay]

theorem handlePacket_chat (hplay : server.state = .play) {pos : ℕ}
    (hread : readVarintBody body 0 = some (0x01, pos)) :
    handlePacket cfg server body tx = handleChat cfg server body pos tx := by
  rw [handlePacket_of_play hplay hread, handlePacketByState,
    if_neg fun h => absurd (hplay.symm.trans h.1) (by decide),
    if_neg fun h => absurd (hplay.symm.trans h.1) (by decide),
    if_neg fun h => absurd (hplay.symm.trans h.1) (by decide),
    if_neg fun h => absurd h.2 (by decide), if_pos ⟨hplay, rfl⟩]

theorem handlePacket_movement (hplay : server.state = .play) {packetId : Int32} {pos : ℕ}
    (hread : readVarintBody body 0 = some (packetId, pos)) (hid : IsMovementId packetId) :
    handlePacket cfg server body tx =
      ((handlePlayMovement server packetId body pos).1,
        (handlePlayMovement server packetId body pos).2, tx) := by
  have hzero : packetId ≠ 0x00 := by
    rcases hid with rfl | rfl | rfl | rfl <;> decide
  have hone : packetId ≠ 0x01 := by
    rcases hid with rfl | rfl | rfl | rfl <;> decide
  rw [handlePacket_of_play hplay hread, handlePacketByState, if_neg fun h => hzero h.2,
    if_neg fun h => hone h.2.1, if_neg fun h => hzero h.2, if_neg fun h => hzero h.2,
    if_neg fun h => hone h.2, if_pos ⟨hplay, hid⟩]

/-- A chat packet: the frames of its command, then one chat frame, in the framing mode of the
session, and the fields of the command. -/
def ChatEffect (cfg : McConfig) (server : McServer) (body : List UInt8) (pos : ℕ) (tx : TxRing)
    (outcome : McServer × TxRing) : Prop :=
  ∃ message result action chat,
    readChatBody body pos mcCommandTextCap = some (message, body.length) ∧
    mcCommandsHandleChat (cString server.username) message (buildCommandContext server) =
      some result ∧
    (message.head? ≠ some 0x2f → result.action = .chat) ∧
    actionBodies result.action = some action ∧
    action.length = actionFrameCount result.action ∧
    buildChatBody (mcCommandTextCap * 6 + 32) result.chat = some chat ∧
    (result.action = .chat → outcome.1 = server) ∧
    (∀ position, result.action = .teleport position →
      outcome.1 = { server with player := position }) ∧
    (∀ timeOfDay, result.action = .time timeOfDay →
      outcome.1 = { server with worldTime := timeOfDay }) ∧
    (∀ weather, result.action = .weather weather →
      outcome.1 = { server with weather := weather }) ∧
    outcome.2.ring.items =
      tx.ring.items ++ ((action ++ [chat.buf]).map (autoFrame cfg server)).flatten

/-- A movement packet of exactly its length: the fields it carries. -/
def MovementEffect (server : McServer) (packetId : Int32) (body : List UInt8) (pos : ℕ)
    (tx : TxRing) (outcome : McServer × TxRing) : Prop :=
  body.length = pos + movementLength packetId ∧
    ∃ player onGround,
      readMovement packetId body pos server.player = some (player, onGround, body.length) ∧
      outcome = ({ server with player, playerOnGround := onGround }, tx) ∧
      (packetId = 0x03 ∨ packetId = 0x05 → player.x = server.player.x ∧
        player.y = server.player.y ∧ player.z = server.player.z) ∧
      (packetId = 0x03 ∨ packetId = 0x04 →
        player.yaw = server.player.yaw ∧ player.pitch = server.player.pitch)

theorem handleChat_effect {pos : ℕ} (h : (handleChat cfg server body pos tx).1 = true) :
    ChatEffect cfg server body pos tx (handleChat cfg server body pos tx).2 := by
  rw [handleChat] at h ⊢
  cases hmessage : readChatBody body pos mcCommandTextCap with
  | none => simp [hmessage] at h
  | some read =>
    obtain ⟨message, pos'⟩ := read
    rw [hmessage] at h
    dsimp only at h ⊢
    by_cases hpos : pos' ≠ body.length
    · rw [if_pos hpos] at h
      cases h
    rw [if_neg hpos] at h ⊢
    cases hresult : mcCommandsHandleChat (cString server.username) message
        (buildCommandContext server) with
    | none =>
      rw [hresult] at h
      cases h
    | some result =>
      rw [hresult] at h
      dsimp only at h ⊢
      rw [executeCommandResult] at h ⊢
      cases hpackets : commandResultBodies result with
      | none =>
        rw [hpackets] at h
        cases h
      | some packets =>
        rw [hpackets] at h
        dsimp only at h ⊢
        obtain ⟨action, chat, haction, hchat, rfl, hcount⟩ := commandResultBodies_cases hpackets
        have hplain : message.head? ≠ some 0x2f → result.action = .chat := by
          intro hslash
          rw [mcCommandsHandleChat, if_pos hslash] at hresult
          exact action_mcPlainChat hresult
        rcases queuePacketBatch_cases cfg server tx (action ++ [chat.buf]) with
          hfail | ⟨_, hfits, hpush⟩
        · rw [hfail] at h
          cases h
        · rw [hpush]
          refine ⟨message, result, action, chat, ?_, hresult, hplain, haction, hcount, hchat,
            ?_, ?_, ?_, ?_, (Ringbuf.write_of_le hfits).2⟩
          · rw [hmessage, not_not.mp hpos]
          · intro hplainChat
            show applyCommandResult server result = _
            rw [applyCommandResult, hplainChat]
          · intro position hteleport
            show applyCommandResult server result = _
            rw [applyCommandResult, hteleport]
          · intro timeOfDay htime
            show applyCommandResult server result = _
            rw [applyCommandResult, htime]
          · intro weather hweather
            show applyCommandResult server result = _
            rw [applyCommandResult, hweather]

theorem handlePlayMovement_effect {packetId : Int32} {pos : ℕ}
    (h : (handlePlayMovement server packetId body pos).1 = true) :
    MovementEffect server packetId body pos tx
      ((handlePlayMovement server packetId body pos).2, tx) := by
  rw [handlePlayMovement] at h ⊢
  cases hread : readMovement packetId body pos server.player with
  | none => simp [hread] at h
  | some read =>
    obtain ⟨player, onGround, pos'⟩ := read
    rw [hread] at h
    dsimp only at h ⊢
    by_cases hpos : pos' ≠ body.length
    · rw [if_pos hpos] at h
      cases h
    rw [if_neg hpos]
    obtain ⟨hlen, hposition, hrotation⟩ := readMovement_eq_some hread
    have hend := not_not.mp hpos
    exact ⟨hend ▸ hlen, player, onGround, hend ▸ hread, rfl, hposition, hrotation⟩

/-- A packet in PLAY has all of its effect, or none. -/
theorem handlePacket_play (cfg : McConfig) {server : McServer} (hplay : server.state = .play)
    (body : List UInt8) (tx : TxRing) :
    ((handlePacket cfg server body tx).1 = false →
      (handlePacket cfg server body tx).2 = (server, tx)) ∧
    (∀ pos, readVarintBody body 0 = some (0x01, pos) →
      (handlePacket cfg server body tx).1 = true →
      ChatEffect cfg server body pos tx (handlePacket cfg server body tx).2) ∧
    ∀ packetId pos, readVarintBody body 0 = some (packetId, pos) → IsMovementId packetId →
      (handlePacket cfg server body tx).1 = true →
      MovementEffect server packetId body pos tx (handlePacket cfg server body tx).2 := by
  refine ⟨(handlePacket_step cfg server body tx).unchanged_of_play hplay, ?_, ?_⟩
  · intro pos hread h
    rw [handlePacket_chat hplay hread] at h ⊢
    exact handleChat_effect h
  · intro packetId pos hread hid h
    rw [handlePacket_movement hplay hread hid] at h ⊢
    exact handlePlayMovement_effect h

/-- "/time day" after a login. -/
def timeDayBody : List UInt8 := [1, 9, 0x2f, 0x74, 0x69, 0x6d, 0x65, 0x20, 0x64, 0x61, 0x79]

theorem handlePacket_play_timeDay :
    ChatEffect compressionConfig loginDone.2.1 timeDayBody 1 loginDone.2.2
      (handlePacket compressionConfig loginDone.2.1 timeDayBody loginDone.2.2).2 := by
  have hplay : loginDone.2.1.state = .play := by decide +kernel
  have haccepted : (handlePacket compressionConfig loginDone.2.1 timeDayBody loginDone.2.2).1 =
      true := by decide +kernel
  exact (handlePacket_play compressionConfig hplay timeDayBody loginDone.2.2).2.1 1 (by decide)
    haccepted

end StarrySky.Core
