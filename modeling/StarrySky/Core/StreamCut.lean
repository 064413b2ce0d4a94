import StarrySky.Base.Pieces
import StarrySky.Core.Framing
import StarrySky.Core.ServerInvariant

/-! The client's stream and the calls it is cut into: what a call does with the bytes that are
there depends on nothing but them, and a part of a frame is rejected only for a packet id that
no handler knows. -/

namespace StarrySky.Core
open StarrySky.Base

variable {cfg : McConfig} {server : McServer} {tx : TxRing}

def withAccum (result : Bool × McServer × TxRing) (rxAccum : List UInt8) :
    Bool × McServer × TxRing :=
  (result.1, { result.2.1 with rxAccum := rxAccum }, result.2.2)

section
variable (cfg server) (rxAccum : List UInt8)

theorem addPacketAutoFrameLens_withAccum (needed : ℕ) (packets : List (List UInt8)) :
    addPacketAutoFrameLens cfg { server with rxAccum := rxAccum } needed packets =
      addPacketAutoFrameLens cfg server needed packets := by
  induction packets generalizing needed with
  | nil => rfl
  | cons body packets ih =>
    rw [addPacketAutoFrameLens, addPacketAutoFrameLens]
    simp only [ih]
    rfl

theorem queuePackets_withAccum (checkpoint : TxCheckpoint) (tx : TxRing)
    (packets : List (List UInt8)) :
    queuePackets cfg { server with rxAccum := rxAccum } checkpoint tx packets =
      queuePackets cfg server checkpoint tx packets := by
  induction packets generalizing tx with
  | nil => rfl
  | cons body packets ih =>
    rw [queuePackets, queuePackets]
    simp only [ih]
    rfl

theorem queuePacketBatch_withAccum (tx : TxRing) (packets : List (List UInt8)) :
    queuePacketBatch cfg { server with rxAccum := rxAccum } tx packets =
      queuePacketBatch cfg server tx packets := by
  rw [queuePacketBatch, queuePacketBatch, addPacketAutoFrameLens_withAccum]
  cases addPacketAutoFrameLens cfg server 0 packets with
  | none => rfl
  | some needed =>
    dsimp only
    rw [queuePackets_withAccum]

theorem executeCommandResult_withAccum (tx : TxRing) (result : McCommandResult) :
    executeCommandResult cfg { server with rxAccum := rxAccum } tx result =
      withAccum (executeCommandResult cfg server tx result) rxAccum := by
  rw [executeCommandResult, executeCommandResult]
  cases commandResultBodies result with
  | none => rfl
  | some packets =>
    dsimp only
    rw [queuePacketBatch_withAccum]
    obtain ⟨queued, tx'⟩ := queuePacketBatch cfg server tx packets
    obtain ⟨action, chat⟩ := result
    cases queued
    · rfl
    · cases action <;> rfl

theorem handleChat_withAccum (body : List UInt8) (pos : ℕ) (tx : TxRing) :
    handleChat cfg { server with rxAccum := rxAccum } body pos tx =
      withAccum (handleChat cfg server body pos tx) rxAccum := by
  rw [handleChat, handleChat]
  cases readChatBody body pos mcCommandTextCap with
  | none => rfl
  | some read =>
    obtain ⟨message, pos'⟩ := read
    dsimp only
    split_ifs
    · rfl
    · have hcontext : buildCommandContext { server with rxAccum := rxAccum } =
          buildCommandContext server := rfl
      rw [hcontext]
      cases mcCommandsHandleChat (cString server.username) message (buildCommandContext server) with
      | none => rfl
      | some result => exact executeCommandResult_withAccum cfg server rxAccum tx result

theorem handleKeepalive_withAccum (body : List UInt8) (pos : ℕ) :
    handleKeepalive { server with rxAccum := rxAccum } body pos =
      ((handleKeepalive server body pos).1,
        { (handleKeepalive server body pos).2 with rxAccum := rxAccum }) := by
  rw [handleKeepalive, handleKeepalive]
  cases readVarintBody body pos with
  | none => rfl
  | some read =>
    dsimp only
    split_ifs <;> rfl

theorem handlePlayMovement_withAccum (packetId : Int32) (body : List UInt8) (pos : ℕ) :
    handlePlayMovement { server with rxAccum := rxAccum } packetId body pos =
      ((handlePlayMovement server packetId body pos).1,
        { (handlePlayMovement server packetId body pos).2 with rxAccum := rxAccum }) := by
  rw [handlePlayMovement, handlePlayMovement]
  dsimp only
  cases readMovement packetId body pos server.player with
  | none => rfl
  | some read =>
    dsimp only
    split_ifs <;> rfl

theorem queueCompressedLogin_withAccum (tx : TxRing) (username : List UInt8) :
    queueCompressedLogin { server with rxAccum := rxAccum } tx username =
      withAccum (queueCompressedLogin server tx username) rxAccum := by
  rw [queueCompressedLogin, queueCompressedLogin]
  dsimp only
  cases buildSetCompression 16 server.compressionThreshold with
  | none => rfl
  | some compression =>
    cases buildLoginSuccessBody 128 username with
    | none => rfl
    | some success =>
      dsimp only
      split_ifs <;> rfl

theorem handleLoginStart_withAccum (body : List UInt8) (pos : ℕ) (tx : TxRing) :
    handleLoginStart cfg { server with rxAccum := rxAccum } body pos tx =
      withAccum (handleLoginStart cfg server body pos tx) rxAccum := by
  rw [handleLoginStart, handleLoginStart]
  cases readStringBody body pos (mcMaxUsername + 1) with
  | none => rfl
  | some read =>
    obtain ⟨text, pos'⟩ := read
    dsimp only
    rw [queueCompressedLogin_withAccum]
    obtain ⟨queued, server', tx'⟩ := queueCompressedLogin server tx (cString text)
    by_cases hname : cString text = []
    · rw [if_pos hname, if_pos hname]
      rfl
    rw [if_neg hname, if_neg hname]
    by_cases hcfg : cfg.protocolCompressionEnable = true
    · rw [if_pos hcfg, if_pos hcfg]
      cases queued <;> rfl
    · rw [if_neg hcfg, if_neg hcfg]
      obtain ⟨queued', tx''⟩ := queueLoginSuccess tx (cString text)
      cases queued' <;> rfl

theorem tryHandleHandshake_withAccum (body : List UInt8) :
    tryHandleHandshake cfg { server with rxAccum := rxAccum } body =
      ((tryHandleHandshake cfg server body).1,
        { (tryHandleHandshake cfg server body).2 with rxAccum := rxAccum }) := by
  rw [tryHandleHandshake, tryHandleHandshake]
  cases readVarintBody body 0 with
  | none => rfl
  | some read =>
    obtain ⟨packetId, pos⟩ := read
    dsimp only
    split_ifs
    · rfl
    · cases readHandshake body pos with
      | none => rfl
      | some nextState =>
        dsimp only
        split_ifs <;> rfl

theorem handlePacketByState_withAccum (packetId : Int32) (pos : ℕ) (body : List UInt8)
    (tx : TxRing) :
    handlePacketByState cfg { server with rxAccum := rxAccum } packetId pos body tx =
      withAccum (handlePacketByState cfg server packetId pos body tx) rxAccum := by
  rw [handlePacketByState, handlePacketByState]
  dsimp only
  rw [handleLoginStart_withAccum, handleKeepalive_withAccum, handleChat_withAccum,
    handlePlayMovement_withAccum]
  split_ifs <;> rfl

theorem handlePacket_withAccum (body : List UInt8) (tx : TxRing) :
    handlePacket cfg { server with rxAccum := rxAccum } body tx =
      withAccum (handlePacket cfg server body tx) rxAccum := by
  rw [handlePacket, handlePacket]
  cases readVarintBody body 0 with
  | none => rfl
  | some read =>
    obtain ⟨packetId, pos⟩ := read
    dsimp only
    rw [tryHandleHandshake_withAccum, handlePacketByState_withAccum]
    obtain ⟨handshake, server'⟩ := tryHandleHandshake cfg server body
    split_ifs
    · cases handshake <;> rfl
    · cases handshake with
      | accepted => rfl
      | noMatch =>
        dsimp only
        rw [handlePacketByState_withAccum]
        rfl
      | invalid =>
        dsimp only
        rw [handlePacketByState_withAccum]
        split_ifs <;> rfl
    · rfl

end

theorem rxAccum_handlePacket (cfg : McConfig) (server : McServer) (body : List UInt8)
    (tx : TxRing) : (handlePacket cfg server body tx).2.1.rxAccum = server.rxAccum :=
  congrArg (fun result => result.2.1.rxAccum)
    (handlePacket_withAccum cfg server server.rxAccum body tx)

theorem unwrapPacket_withAccum (server : McServer) (rxAccum : List UInt8) (packet : McPacket) :
    unwrapPacket { server with rxAccum := rxAccum } packet = unwrapPacket server packet := rfl

theorem partialFrameHasInvalidPacketId_withAccum (cfg : McConfig) (server : McServer)
    (rxAccum bytes : List UInt8) :
    partialFrameHasInvalidPacketId cfg { server with rxAccum := rxAccum } bytes =
      partialFrameHasInvalidPacketId cfg server bytes := rfl

def InboundFrame.packet (frame : InboundFrame) : McPacket :=
  { body := frame.body, frameLen := frame.bytes.length }

/-- One round of the receive loop, on a frame. -/
def handleFrame (cfg : McConfig) (server : McServer) (frame : InboundFrame) (tx : TxRing) :
    Bool × McServer × TxRing :=
  match unwrapPacket server frame.packet with
  | none => (false, server, tx)
  | some body => handlePacket cfg server body tx

theorem handleFrame_withAccum (cfg : McConfig) (server : McServer) (rxAccum : List UInt8)
    (frame : InboundFrame) (tx : TxRing) :
    handleFrame cfg { server with rxAccum := rxAccum } frame tx =
      withAccum (handleFrame cfg server frame tx) rxAccum := by
  rw [handleFrame, handleFrame, unwrapPacket_withAccum]
  cases unwrapPacket server frame.packet with
  | none => rfl
  | some body => exact handlePacket_withAccum cfg server rxAccum body tx

theorem rxAccum_handleFrame (cfg : McConfig) (server : McServer) (frame : InboundFrame)
    (tx : TxRing) : (handleFrame cfg server frame tx).2.1.rxAccum = server.rxAccum := by
  rw [handleFrame]
  cases unwrapPacket server frame.packet with
  | none => rfl
  | some body => exact rxAccum_handlePacket cfg server body tx

theorem withAccum_eq_self {result : Bool × McServer × TxRing} {rxAccum : List UInt8}
    (h : result.2.1.rxAccum = rxAccum) : withAccum result rxAccum = result := by
  rw [← h]
  rfl

theorem receiveLoop_frame (cfg : McConfig) (server : McServer) {frame : InboundFrame}
    (hbody : frame.body.length ≤ mcMaxPacketBody) (rest : List UInt8) (tx : TxRing) :
    receiveLoop cfg server (frame.bytes ++ rest) tx =
      if (handleFrame cfg server frame tx).1 then
        receiveLoop cfg (handleFrame cfg server frame tx).2.1 rest
          (handleFrame cfg server frame tx).2.2
      else withAccum (handleFrame cfg server frame tx) [] := by
  obtain ⟨hclass, hread⟩ := classifyFrame_frame hbody rest
  rw [receiveLoop, hclass]
  dsimp only
  split
  case h_1 hnone => exact absurd (hread.symm.trans hnone) (by simp)
  case h_2 packet hsome =>
    obtain rfl : frame.packet = packet := Option.some.inj (hread.symm.trans hsome)
    rw [handleFrame]
    cases unwrapPacket server frame.packet with
    | none => rfl
    | some body =>
      have hdrop : (frame.bytes ++ rest).drop frame.packet.frameLen = rest := List.drop_left
      dsimp only
      rw [hdrop]
      cases hhandled : (handlePacket cfg server body tx).1
      · rw [withAccum, hhandled]
        rfl
      · rfl

theorem receiveLoop_part (cfg : McConfig) (server : McServer) {frame : InboundFrame}
    (hbody : frame.body.length ≤ mcMaxPacketBody) {part : List UInt8}
    (hpre : part <+: frame.bytes) (hne : part ≠ frame.bytes) (tx : TxRing) :
    receiveLoop cfg server part tx =
      if partialFrameHasInvalidPacketId cfg server part then
        (false, { server with rxAccum := [] }, tx)
      else (true, { server with rxAccum := part }, tx) := by
  rw [receiveLoop, (classifyFrame_part hbody hpre hne).1]

theorem receiveLoop_nil (cfg : McConfig) (server : McServer) (tx : TxRing) :
    receiveLoop cfg server [] tx = (true, { server with rxAccum := [] }, tx) := by
  rw [receiveLoop]
  rfl

theorem accumulate_of_le {rxAccum bytes : List UInt8}
    (h : rxAccum.length + bytes.length ≤ mcRxAccumSize) :
    accumulate rxAccum bytes = some (rxAccum ++ bytes) := by
  induction bytes generalizing rxAccum with
  | nil => rw [List.append_nil, accumulate]
  | cons byte bytes ih =>
    rw [List.length_cons] at h
    have hroom : (rxAccum ++ [byte]).length + bytes.length ≤ mcRxAccumSize := by
      rw [List.length_append, List.length_singleton]
      omega
    rw [accumulate, if_neg (by omega), ih hroom, List.append_assoc, List.singleton_append]

theorem accumulate_eq_some {rxAccum bytes whole : List UInt8}
    (h : accumulate rxAccum bytes = some whole) : whole = rxAccum ++ bytes := by
  induction bytes generalizing rxAccum with
  | nil =>
    rw [accumulate] at h
    rw [List.append_nil, Option.some.inj h]
  | cons byte bytes ih =>
    rw [accumulate] at h
    split_ifs at h
    rw [ih h, List.append_assoc, List.singleton_append]

theorem mcServerReceive_frame (cfg : McConfig) {server : McServer} (hempty : server.rxAccum = [])
    {frame : InboundFrame} (hbody : frame.body.length ≤ mcMaxPacketBody) (tx : TxRing) :
    mcServerReceive cfg server frame.bytes tx = handleFrame cfg server frame tx := by
  have hlen : server.rxAccum.length + frame.bytes.length ≤ mcRxAccumSize := by
    have hlength := frame.length_lengthBytes_le
    rw [hempty, frame.length_bytes, List.length_nil]
    exact (Nat.zero_add _).trans_le (by
      unfold mcRxAccumSize varintMaxBytes at *
      omega)
  have hloop := receiveLoop_frame cfg server hbody [] tx
  rw [List.append_nil] at hloop
  rw [mcServerReceive, accumulate_of_le hlen]
  dsimp only
  rw [hempty, List.nil_append, hloop]
  have hsame : withAccum (handleFrame cfg server frame tx) [] = handleFrame cfg server frame tx :=
    withAccum_eq_self ((rxAccum_handleFrame cfg server frame tx).trans hempty)
  by_cases hhandled : (handleFrame cfg server frame tx).1 = true
  · rw [if_pos hhandled, receiveLoop_nil, ← hhandled]
    exact hsame
  · rw [if_neg hhandled, hsame]

end StarrySky.Core
