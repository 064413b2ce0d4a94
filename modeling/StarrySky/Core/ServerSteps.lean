import StarrySky.Core.Server

/-! What the server's functions can do: every enqueued packet is one whole frame, and every
packet handled is one of the steps listed in `PacketStep`. -/

namespace StarrySky.Core
open StarrySky.Base

variable {cfg : McConfig} {server : McServer} {tx : TxRing}

/-- The frame that `queue_packet_auto` makes. -/
def autoFrame (cfg : McConfig) (server : McServer) (body : List UInt8) : List UInt8 :=
  if cfg.protocolCompressionEnable ∧ server.compressionEnabled then compressedFrame 0 body
  else plainFrame body

theorem queuePacketAuto_eq (cfg : McConfig) (server : McServer) (tx : TxRing)
    (body : List UInt8) :
    queuePacketAuto cfg server tx body =
      if body.length ≤ mcMaxPacketBody ∧ (autoFrame cfg server body).length ≤ tx.free then
        (true, tx.push (autoFrame cfg server body))
      else (false, tx) := by
  unfold queuePacketAuto autoFrame
  by_cases hcompress : cfg.protocolCompressionEnable ∧ server.compressionEnabled
  · simp only [if_pos hcompress]
    exact queuePacketCompressedPlain_eq tx body
  · simp only [if_neg hcompress]
    exact mcServerQueuePacket_eq tx body

theorem queuePacketAuto_addsFrame (cfg : McConfig) (server : McServer) (tx : TxRing)
    (body : List UInt8) :
    AddsFrame tx (autoFrame cfg server body) (queuePacketAuto cfg server tx body) := by
  unfold queuePacketAuto autoFrame
  split_ifs
  · exact queuePacketCompressedPlain_addsFrame tx body
  · exact mcServerQueuePacket_addsFrame tx body

theorem packetAutoFrameLen_eq (cfg : McConfig) (server : McServer) {body : List UInt8}
    (h : body.length ≤ mcMaxPacketBody) :
    packetAutoFrameLen cfg server body.length = (autoFrame cfg server body).length := by
  unfold packetAutoFrameLen autoFrame
  split_ifs with hcompress
  · exact mcPacketCompressedPlainFrameLen_eq h
  · exact mcPacketFrameLen_eq h

theorem packetAutoFrameLen_of_lt (cfg : McConfig) (server : McServer) {bodyLen : ℕ}
    (h : mcMaxPacketBody < bodyLen) : packetAutoFrameLen cfg server bodyLen = 0 := by
  unfold packetAutoFrameLen mcPacketCompressedPlainFrameLen mcPacketFrameLen
  simp only [if_pos h, ite_self]

theorem addPacketAutoFrameLens_eq_some {needed total : ℕ} {packets : List (List UInt8)}
    (h : addPacketAutoFrameLens cfg server needed packets = some total) :
    total = needed + ((packets.map (autoFrame cfg server)).flatten).length ∧
      ∀ body ∈ packets, body.length ≤ mcMaxPacketBody := by
  induction packets generalizing needed with
  | nil =>
    rw [addPacketAutoFrameLens] at h
    exact ⟨(Option.some.inj h).symm, by simp⟩
  | cons body packets ih =>
    rw [addPacketAutoFrameLens] at h
    by_cases hbody : body.length ≤ mcMaxPacketBody
    case neg =>
      rw [packetAutoFrameLen_of_lt cfg server (Nat.lt_of_not_le hbody)] at h
      simp at h
    rw [packetAutoFrameLen_eq cfg server hbody] at h
    split_ifs at h
    obtain ⟨htotal, hbodies⟩ := ih h
    refine ⟨?_, ?_⟩
    · rw [htotal, List.map_cons, List.flatten_cons, List.length_append, Nat.add_assoc]
    · intro b hb
      rcases List.mem_cons.mp hb with rfl | hb
      · exact hbody
      · exact hbodies b hb

theorem queuePackets_of_le {checkpoint : TxCheckpoint} {packets : List (List UInt8)}
    (hbodies : ∀ body ∈ packets, body.length ≤ mcMaxPacketBody)
    (hfits : ((packets.map (autoFrame cfg server)).flatten).length ≤ tx.free) :
    queuePackets cfg server checkpoint tx packets =
      (true, tx.push (packets.map (autoFrame cfg server)).flatten) := by
  induction packets generalizing tx with
  | nil => simp [queuePackets]
  | cons body packets ih =>
    rw [List.map_cons, List.flatten_cons] at hfits ⊢
    have hsum := hfits
    rw [List.length_append] at hsum
    have hframe : (autoFrame cfg server body).length ≤ tx.free :=
      (Nat.le_add_right _ _).trans hsum
    have hqueued : queuePacketAuto cfg server tx body =
        (true, tx.push (autoFrame cfg server body)) := by
      rw [queuePacketAuto_eq, if_pos ⟨hbodies body (by simp), hframe⟩]
    have hfree := TxRing.free_push hframe
    rw [queuePackets, hqueued]
    show queuePackets cfg server checkpoint (tx.push (autoFrame cfg server body)) packets = _
    rw [ih (fun b hb => hbodies b (by simp [hb])) (by omega), TxRing.push_push hfits]

theorem queuePacketBatch_cases (cfg : McConfig) (server : McServer) (tx : TxRing)
    (packets : List (List UInt8)) :
    queuePacketBatch cfg server tx packets = (false, tx) ∨
      (∀ body ∈ packets, body.length ≤ mcMaxPacketBody) ∧
      ((packets.map (autoFrame cfg server)).flatten).length ≤ tx.free ∧
      queuePacketBatch cfg server tx packets =
        (true, tx.push (packets.map (autoFrame cfg server)).flatten) := by
  rw [queuePacketBatch]
  cases hneeded : addPacketAutoFrameLens cfg server 0 packets with
  | none => exact .inl rfl
  | some needed =>
    obtain ⟨htotal, hbodies⟩ := addPacketAutoFrameLens_eq_some hneeded
    rw [Nat.zero_add] at htotal
    dsimp only
    by_cases hfits : needed ≤ tx.free
    · rw [if_neg (Nat.not_lt.mpr hfits)]
      rw [htotal] at hfits
      exact .inr ⟨hbodies, hfits, queuePackets_of_le hbodies hfits⟩
    · rw [if_pos (Nat.lt_of_not_le hfits)]
      exact .inl rfl

theorem queueBuilt_cases {tx : TxRing} {w : Option McWriter}
    {queue : TxRing → List UInt8 → Bool × TxRing} {frame : List UInt8 → List UInt8}
    (hqueue : ∀ body, AddsFrame tx (frame body) (queue tx body)) :
    queueBuilt tx w queue = (false, tx) ∨
      ∃ built, w = some built ∧ tx.Fits (frame built.buf) ∧
        queueBuilt tx w queue = (true, tx.push (frame built.buf)) := by
  cases w with
  | none => exact .inl rfl
  | some built =>
    rcases hqueue built.buf with hfail | ⟨hfits, hpush⟩
    · exact .inl hfail
    · exact .inr ⟨built, rfl, hfits, hpush⟩

/-! Writers only append. -/

namespace McWriter

theorem writeBytes_eq_some {w w' : McWriter} {src : List UInt8} (h : w.writeBytes src = some w') :
    w'.buf = w.buf ++ src := by
  rw [writeBytes] at h
  split_ifs at h
  rw [← Option.some.inj h]

theorem length_le_of_writeBytes {w w' : McWriter} {src : List UInt8}
    (h : w.writeBytes src = some w') : w'.cap = w.cap ∧ w'.buf.length ≤ w.cap := by
  rw [writeBytes] at h
  split_ifs at h with hspace
  rw [← Option.some.inj h]
  have hroom := of_decide_eq_true hspace
  refine ⟨rfl, ?_⟩
  show (w.buf ++ src).length ≤ w.cap
  rw [List.length_append]
  omega

theorem writeVarint_eq_some {w w' : McWriter} {value : Int32} (h : w.writeVarint value = some w') :
    w'.buf = w.buf ++ varintBytes value := by
  rw [writeVarint, mcVarintEncode_eq, Option.bind_some] at h
  exact writeBytes_eq_some h

theorem length_le_of_writeVarint {w w' : McWriter} {value : Int32}
    (h : w.writeVarint value = some w') : w'.cap = w.cap ∧ w'.buf.length ≤ w.cap := by
  rw [writeVarint, mcVarintEncode_eq, Option.bind_some] at h
  exact length_le_of_writeBytes h

theorem length_le_of_writeString {w w' : McWriter} {str : List UInt8}
    (h : w.writeString str = some w') : w'.cap = w.cap ∧ w'.buf.length ≤ w.cap := by
  rw [writeString] at h
  split_ifs at h
  obtain ⟨v, hv, hbytes⟩ := Option.bind_eq_some_iff.mp h
  have hcap := (length_le_of_writeVarint hv).1
  rw [← hcap]
  exact length_le_of_writeBytes hbytes

theorem writeString_eq_some {w w' : McWriter} {str : List UInt8} (h : w.writeString str = some w') :
    w'.buf = w.buf ++ varintBytes (Int32.ofNat str.length) ++ str := by
  rw [writeString] at h
  split_ifs at h
  obtain ⟨v, hv, hbytes⟩ := Option.bind_eq_some_iff.mp h
  rw [writeBytes_eq_some hbytes, writeVarint_eq_some hv]

end McWriter

/-- What one packet can do to the server and its transmit ring. -/
inductive PacketStep (cfg : McConfig) (server : McServer) (tx : TxRing) :
    Bool × McServer × TxRing → Prop
  | reject : PacketStep cfg server tx (false, server, tx)
  | ignore : PacketStep cfg server tx (true, server, tx)
  | acceptHandshake (hstate : server.state ≠ .play) (next : McConnState)
      (hnext : next = .status ∨ next = .login) :
      PacketStep cfg server tx
        (true, { resetLogicalSession cfg server with state := next }, tx.dropAll)
  | badNextState (hstate : server.state ≠ .play) :
      PacketStep cfg server tx (false, resetLogicalSession cfg server, tx)
  | answerStatus (hstate : server.state = .status) (id : UInt8) (hid : id = 0 ∨ id = 1)
      (rest : List UInt8) (hfits : tx.Fits (plainFrame (id :: rest))) :
      PacketStep cfg server tx (true, server, tx.push (plainFrame (id :: rest)))
  | loginCompressed (hcfg : cfg.protocolCompressionEnable = true)
      (hstate : server.state = .login) (text : List UInt8) (htext : text.length ≤ mcMaxUsername)
      (hname : cString text ≠ []) (success : McWriter)
      (hsuccess : buildLoginSuccessBody 128 (cString text) = some success)
      (hfits : (plainFrame (3 :: varintBytes server.compressionThreshold) ++
        compressedFrame 0 success.buf).length ≤ tx.free) :
      PacketStep cfg server tx
        (true, { server with compressionEnabled := true, username := text ++ [0], state := .play },
          tx.push (plainFrame (3 :: varintBytes server.compressionThreshold) ++
            compressedFrame 0 success.buf))
  | loginPlain (hcfg : cfg.protocolCompressionEnable = false) (hstate : server.state = .login)
      (text : List UInt8) (htext : text.length ≤ mcMaxUsername) (hname : cString text ≠ [])
      (success : McWriter) (hsuccess : buildLoginSuccessBody 128 (cString text) = some success)
      (hfits : tx.Fits (plainFrame success.buf)) :
      PacketStep cfg server tx
        (true, { server with username := text ++ [0], state := .play },
          tx.push (plainFrame success.buf))
  | keepalive (hstate : server.state = .play) :
      PacketStep cfg server tx (true, { server with keepalivePending := false }, tx)
  | movement (hstate : server.state = .play) (player : McCommandPosition) (onGround : Bool) :
      PacketStep cfg server tx (true, { server with player, playerOnGround := onGround }, tx)
  | chat (hstate : server.state = .play) (message : List UInt8) (result : McCommandResult)
      (hresult : mcCommandsHandleChat (cString server.username) message
        (buildCommandContext server) = some result)
      (packets : List (List UInt8)) (hpackets : commandResultBodies result = some packets)
      (hbodies : ∀ body ∈ packets, body.length ≤ mcMaxPacketBody)
      (hfits : ((packets.map (autoFrame cfg server)).flatten).length ≤ tx.free) :
      PacketStep cfg server tx
        (true, applyCommandResult server result,
          tx.push (packets.map (autoFrame cfg server)).flatten)

theorem varintBytes_one : varintBytes 1 = [1] := rfl
theorem varintBytes_three : varintBytes 3 = [3] := rfl

theorem startsWith_of_writeVarint {cap : ℕ} {id : Int32} {byte : UInt8}
    (hid : varintBytes id = [byte]) {f : McWriter → Option McWriter}
    (hf : ∀ w w', f w = some w' → w.buf <+: w'.buf) {built : McWriter}
    (h : ((McWriter.init cap).writeVarint id).bind f = some built) :
    ∃ rest, built.buf = byte :: rest := by
  obtain ⟨w, hw, hbuilt⟩ := Option.bind_eq_some_iff.mp h
  obtain ⟨rest, hrest⟩ := hf w built hbuilt
  refine ⟨rest, ?_⟩
  rw [← hrest, McWriter.writeVarint_eq_some hw, hid]
  rfl

theorem statusResponseBody_eq_some {built : McWriter} (h : statusResponseBody = some built) :
    ∃ rest, built.buf = 0 :: rest := by
  rw [statusResponseBody] at h
  exact startsWith_of_writeVarint varintBytes_zero
    (fun w w' h => ⟨_, by rw [McWriter.writeString_eq_some h, List.append_assoc]⟩) h

theorem pongBody_eq_some {payload : List UInt8} {built : McWriter}
    (h : pongBody payload = some built) : ∃ rest, built.buf = 1 :: rest := by
  rw [pongBody] at h
  exact startsWith_of_writeVarint varintBytes_one
    (fun w w' h => ⟨_, (McWriter.writeBytes_eq_some h).symm⟩) h

theorem queueStatusResponse_step (hstate : server.state = .status) :
    PacketStep cfg server tx
      ((queueStatusResponse tx).1, server, (queueStatusResponse tx).2) := by
  rcases queueBuilt_cases (fun body => mcServerQueuePacket_addsFrame tx body) with
    hfail | ⟨built, hbuilt, hfits, hpush⟩
  · rw [queueStatusResponse, hfail]
    exact .reject
  · obtain ⟨rest, hrest⟩ := statusResponseBody_eq_some hbuilt
    rw [queueStatusResponse, hpush]
    rw [hrest] at hfits ⊢
    exact .answerStatus hstate 0 (.inl rfl) rest hfits

theorem queuePong_step (hstate : server.state = .status) (payload : List UInt8) :
    PacketStep cfg server tx ((queuePong tx payload).1, server, (queuePong tx payload).2) := by
  rcases queueBuilt_cases (fun body => mcServerQueuePacket_addsFrame tx body) with
    hfail | ⟨built, hbuilt, hfits, hpush⟩
  · rw [queuePong, hfail]
    exact .reject
  · obtain ⟨rest, hrest⟩ := pongBody_eq_some hbuilt
    rw [queuePong, hpush]
    rw [hrest] at hfits ⊢
    exact .answerStatus hstate 1 (.inr rfl) rest hfits

theorem buildSetCompression_eq_some {cap : ℕ} {threshold : Int32} {w : McWriter}
    (h : buildSetCompression cap threshold = some w) : w.buf = 3 :: varintBytes threshold := by
  obtain ⟨v, hv, hw⟩ := Option.bind_eq_some_iff.mp h
  rw [McWriter.writeVarint_eq_some hw, McWriter.writeVarint_eq_some hv, varintBytes_three]
  rfl

theorem length_buildLoginSuccessBody_le {cap : ℕ} {username : List UInt8} {w : McWriter}
    (h : buildLoginSuccessBody cap username = some w) : w.buf.length ≤ cap := by
  obtain ⟨w₁, hw₁, h⟩ := Option.bind_eq_some_iff.mp h
  obtain ⟨w₂, hw₂, h⟩ := Option.bind_eq_some_iff.mp h
  have hcap : w₂.cap = cap :=
    (McWriter.length_le_of_writeString hw₂).1.trans (McWriter.length_le_of_writeVarint hw₁).1
  rw [← hcap]
  exact (McWriter.length_le_of_writeString h).2

theorem queueCompressedLogin_cases (server : McServer) (tx : TxRing) (username : List UInt8) :
    queueCompressedLogin server tx username = (false, server, tx) ∨
      ∃ success, buildLoginSuccessBody 128 username = some success ∧
        (plainFrame (3 :: varintBytes server.compressionThreshold) ++
          compressedFrame 0 success.buf).length ≤ tx.free ∧
        queueCompressedLogin server tx username =
          (true, { server with compressionEnabled := true },
            tx.push (plainFrame (3 :: varintBytes server.compressionThreshold) ++
              compressedFrame 0 success.buf)) := by
  rw [queueCompressedLogin]
  cases hcompression : buildSetCompression 16 server.compressionThreshold with
  | none => exact .inl rfl
  | some compression =>
    cases hsuccess : buildLoginSuccessBody 128 username with
    | none => exact .inl rfl
    | some success =>
      have hbody := buildSetCompression_eq_some hcompression
      have hshort : compression.buf.length ≤ mcMaxPacketBody := by
        have := length_varintBytes_le server.compressionThreshold
        rw [hbody, List.length_cons]
        exact (Nat.succ_le_succ this).trans (by decide)
      have hlong : success.buf.length ≤ mcMaxPacketBody :=
        (length_buildLoginSuccessBody_le hsuccess).trans (by decide)
      dsimp only
      rw [mcPacketFrameLen_eq hshort, mcPacketCompressedPlainFrameLen_eq hlong,
        ← List.length_append, hbody]
      split_ifs with hspace hqueued
      · exact .inl rfl
      · -- the preflight rules this out
        have hfits := Nat.le_of_not_lt (not_or.mp hspace).2
        rw [List.length_append] at hfits
        rw [mcServerQueuePacket_eq, if_pos ⟨hbody ▸ hshort, by omega⟩] at hqueued
        simp at hqueued
      · have hfits := Nat.le_of_not_lt (not_or.mp hspace).2
        have hsum := hfits
        rw [List.length_append] at hsum
        have hfirst : (plainFrame (3 :: varintBytes server.compressionThreshold)).length ≤
            tx.free := by omega
        have hfree := TxRing.free_push hfirst
        refine .inr ⟨success, rfl, hfits, ?_⟩
        rw [mcServerQueuePacket_eq, if_pos ⟨hbody ▸ hshort, hfirst⟩]
        dsimp only
        rw [queuePacketCompressedPlain_eq, if_pos ⟨hlong, by omega⟩, TxRing.push_push hfits]

theorem length_readStringBody_lt {body text : List UInt8} {pos pos' dstCap : ℕ}
    (h : readStringBody body pos dstCap = some (text, pos')) : text.length < dstCap := by
  rw [readStringBody] at h
  cases hlen : readVarintBody body pos with
  | none => simp [hlen] at h
  | some read =>
    obtain ⟨len, pos₁⟩ := read
    simp only [hlen] at h
    split_ifs at h with hneg hbound
    have htext : (body.drop pos₁).take len.toNatClampNeg = text :=
      congrArg Prod.fst (Option.some.inj h)
    have hcap := Nat.lt_of_not_le (not_or.mp hbound).1
    rw [← htext]
    exact lt_of_le_of_lt (List.length_take_le _ _) hcap

theorem handleLoginStart_step (hstate : server.state = .login) (body : List UInt8) (pos : ℕ) :
    PacketStep cfg server tx (handleLoginStart cfg server body pos tx) := by
  rw [handleLoginStart]
  cases htext : readStringBody body pos (mcMaxUsername + 1) with
  | none => exact .reject
  | some read =>
    obtain ⟨text, pos'⟩ := read
    have hlength : text.length ≤ mcMaxUsername := Nat.le_of_lt_succ (length_readStringBody_lt htext)
    dsimp only
    split_ifs with hname hcfg hqueued hqueued
    · exact .reject
    · rcases queueCompressedLogin_cases server tx (cString text) with
        hfail | ⟨success, _, _, hpush⟩
      · rw [hfail]
        exact .reject
      · rw [hpush] at hqueued
        simp at hqueued
    · rcases queueCompressedLogin_cases server tx (cString text) with
        hfail | ⟨success, hsuccess, hfits, hpush⟩
      · rw [hfail] at hqueued
        simp at hqueued
      · rw [hpush]
        exact .loginCompressed hcfg hstate text hlength hname success hsuccess hfits
    · rcases queueBuilt_cases (fun body => mcServerQueuePacket_addsFrame tx body) with
        hfail | ⟨success, _, _, hpush⟩
      · rw [queueLoginSuccess, hfail]
        exact .reject
      · rw [queueLoginSuccess, hpush] at hqueued
        simp at hqueued
    · rcases queueBuilt_cases (fun body => mcServerQueuePacket_addsFrame tx body) with
        hfail | ⟨success, hsuccess, hfits, hpush⟩
      · rw [queueLoginSuccess, hfail] at hqueued
        simp at hqueued
      · rw [queueLoginSuccess, hpush]
        exact .loginPlain (Bool.eq_false_iff.mpr hcfg) hstate text hlength hname success hsuccess
          hfits

theorem handleKeepalive_step (hstate : server.state = .play) (body : List UInt8) (pos : ℕ) :
    PacketStep cfg server tx
      ((handleKeepalive server body pos).1, (handleKeepalive server body pos).2, tx) := by
  rw [handleKeepalive]
  cases readVarintBody body pos with
  | none => exact .reject
  | some read =>
    dsimp only
    split_ifs
    · exact .reject
    · exact .keepalive hstate

theorem executeCommandResult_step (hstate : server.state = .play) {message : List UInt8}
    {result : McCommandResult}
    (hresult : mcCommandsHandleChat (cString server.username) message
      (buildCommandContext server) = some result) :
    PacketStep cfg server tx (executeCommandResult cfg server tx result) := by
  rw [executeCommandResult]
  cases hpackets : commandResultBodies result with
  | none => exact .reject
  | some packets =>
    dsimp only
    rcases queuePacketBatch_cases cfg server tx packets with hfail | ⟨hbodies, hfits, hpush⟩
    · rw [hfail]
      exact .reject
    · rw [hpush]
      exact .chat hstate message result hresult packets hpackets hbodies hfits

theorem handleChat_step (hstate : server.state = .play) (body : List UInt8) (pos : ℕ) :
    PacketStep cfg server tx (handleChat cfg server body pos tx) := by
  rw [handleChat]
  cases readChatBody body pos mcCommandTextCap with
  | none => exact .reject
  | some read =>
    obtain ⟨message, pos'⟩ := read
    dsimp only
    split_ifs
    · exact .reject
    · cases hresult : mcCommandsHandleChat (cString server.username) message
          (buildCommandContext server) with
      | none => exact .reject
      | some result => exact executeCommandResult_step hstate hresult

theorem handlePlayMovement_step (hstate : server.state = .play) (packetId : Int32)
    (body : List UInt8) (pos : ℕ) :
    PacketStep cfg server tx ((handlePlayMovement server packetId body pos).1,
      (handlePlayMovement server packetId body pos).2, tx) := by
  rw [handlePlayMovement]
  cases readMovement packetId body pos server.player with
  | none => exact .reject
  | some read =>
    obtain ⟨player, onGround, pos'⟩ := read
    dsimp only
    split_ifs
    · exact .reject
    · exact .movement hstate player onGround

theorem handlePacketByState_step (cfg : McConfig) (server : McServer) (packetId : Int32) (pos : ℕ)
    (body : List UInt8) (tx : TxRing) :
    PacketStep cfg server tx (handlePacketByState cfg server packetId pos body tx) := by
  rw [handlePacketByState]
  split_ifs with hstatus hping hlogin hkeepalive hchat hmovement
  · exact queueStatusResponse_step hstatus.1
  · exact queuePong_step hping.1 _
  · exact handleLoginStart_step hlogin.1 body pos
  · exact handleKeepalive_step hkeepalive.1 body pos
  · exact handleChat_step hchat.1 body pos
  · exact handlePlayMovement_step hmovement.1 packetId body pos
  · exact .ignore

theorem tryHandleHandshake_cases (cfg : McConfig) (server : McServer) (body : List UInt8) :
    (∃ next, (next = .status ∨ next = .login) ∧ tryHandleHandshake cfg server body =
        (.accepted, { resetLogicalSession cfg server with state := next })) ∨
      tryHandleHandshake cfg server body = (.invalid, resetLogicalSession cfg server) ∨
      ∃ result, result ≠ .accepted ∧ tryHandleHandshake cfg server body = (result, server) := by
  rw [tryHandleHandshake]
  cases readVarintBody body 0 with
  | none => exact .inr (.inr ⟨_, by simp, rfl⟩)
  | some read =>
    obtain ⟨packetId, pos⟩ := read
    dsimp only
    split_ifs with hid
    · exact .inr (.inr ⟨_, by simp, rfl⟩)
    · cases readHandshake body pos with
      | none => exact .inr (.inr ⟨_, by simp, rfl⟩)
      | some nextState =>
        dsimp only
        split_ifs
        · exact .inl ⟨.status, .inl rfl, rfl⟩
        · exact .inl ⟨.login, .inr rfl, rfl⟩
        · exact .inr (.inl rfl)

/-- Every packet handled is one of the steps. -/
theorem handlePacket_step (cfg : McConfig) (server : McServer) (body : List UInt8) (tx : TxRing) :
    PacketStep cfg server tx (handlePacket cfg server body tx) := by
  rw [handlePacket]
  cases readVarintBody body 0 with
  | none => exact .reject
  | some read =>
    obtain ⟨packetId, pos⟩ := read
    dsimp only
    split_ifs with hhandshake hother
    · have hplay : server.state ≠ .play := by
        rw [hhandshake.1]
        decide
      rcases tryHandleHandshake_cases cfg server body with
        ⟨next, hnext, heq⟩ | heq | ⟨result, hresult, heq⟩
      · rw [heq]
        exact .acceptHandshake hplay next hnext
      · rw [heq]
        exact .badNextState hplay
      · rw [heq]
        cases result with
        | accepted => exact absurd rfl hresult
        | noMatch => exact .reject
        | invalid => exact .reject
    · have hplay : server.state ≠ .play := hother.1
      rcases tryHandleHandshake_cases cfg server body with
        ⟨next, hnext, heq⟩ | heq | ⟨result, hresult, heq⟩
      · rw [heq]
        exact .acceptHandshake hplay next hnext
      · rw [heq]
        exact .badNextState hplay
      · rw [heq]
        have hrest := handlePacketByState_step cfg server packetId pos body tx
        cases result with
        | accepted => exact absurd rfl hresult
        | noMatch => exact hrest
        | invalid =>
          dsimp only
          split_ifs
          · exact .reject
          · exact hrest
    · exact handlePacketByState_step cfg server packetId pos body tx

/-- What every packet preserves, `mc_server_receive` preserves. -/
theorem receiveLoop_preserves {P : McServer → TxRing → Prop}
    (hpacket : ∀ server body tx, P server tx →
      P (handlePacket cfg server body tx).2.1 (handlePacket cfg server body tx).2.2)
    (haccum : ∀ server rxAccum tx, P server tx → P { server with rxAccum := rxAccum } tx)
    (rxAccum : List UInt8) (h : P server tx) :
    P (receiveLoop cfg server rxAccum tx).2.1 (receiveLoop cfg server rxAccum tx).2.2 := by
  induction hn : rxAccum.length using Nat.strong_induction_on generalizing server rxAccum tx with
  | _ n ih =>
  rw [receiveLoop]
  cases classifyFrame rxAccum with
  | needMore =>
    dsimp only
    split_ifs
    · exact haccum _ _ _ h
    · exact haccum _ _ _ h
  | invalid => exact haccum _ _ _ h
  | ready frameLen =>
    dsimp only
    split
    case h_1 => exact haccum _ _ _ h
    case h_2 packet hread =>
      cases unwrapPacket server packet with
      | none => exact haccum _ _ _ h
      | some body =>
        have hhandled := hpacket server body tx h
        dsimp only
        split_ifs
        · exact haccum _ _ _ hhandled
        · obtain ⟨hne, hpos⟩ := frameLen_pos hread
          have hlength := List.length_pos_of_ne_nil hne
          refine ih _ ?_ _ hhandled rfl
          rw [List.length_drop]
          omega

theorem mcServerReceive_preserves {P : McServer → TxRing → Prop}
    (hpacket : ∀ server body tx, P server tx →
      P (handlePacket cfg server body tx).2.1 (handlePacket cfg server body tx).2.2)
    (haccum : ∀ server rxAccum tx, P server tx → P { server with rxAccum := rxAccum } tx)
    (bytes : List UInt8) (h : P server tx) :
    P (mcServerReceive cfg server bytes tx).2.1 (mcServerReceive cfg server bytes tx).2.2 := by
  rw [mcServerReceive]
  cases accumulate server.rxAccum bytes with
  | none => exact haccum _ _ _ h
  | some rxAccum => exact receiveLoop_preserves hpacket haccum rxAccum h

/-! Ticks. -/

/-- The packets that ticks send. -/
inductive TickPacket
  | joinGame
  | spawnPosition
  | timeUpdate (timeOfDay : Int32)
  | updateHealth
  | playerAbilities
  | playerPositionAndLook (position : McCommandPosition)
  | chunkData (index : ℕ)
  | keepAlive (id : Int32)
deriving DecidableEq

/-- The frame of a chunk: a precompressed one, or one around the generated body. -/
def chunkFrame (cfg : McConfig) (server : McServer) (index : ℕ) : Option (List UInt8) :=
  if cfg.usePsramCompressedMap ∧ server.compressionEnabled then
    (mcWorldCompressedChunk cfg index).map fun chunk =>
      compressedFrame chunk.rawBodyLen.toInt32 chunk.compressed
  else
    (worldSpawnChunks[index]?).bind fun chunk =>
      (mcWorldBuildChunkBody cfg chunk.1 chunk.2 (mcChunkSectionBytes + 32)).map
        (autoFrame cfg server)

def TickPacket.frame (cfg : McConfig) (server : McServer) : TickPacket → Option (List UInt8)
  | .joinGame => joinGameBody.map fun w => autoFrame cfg server w.buf
  | .spawnPosition => spawnPositionBody.map fun w => autoFrame cfg server w.buf
  | .timeUpdate timeOfDay => (buildTimeBody 32 timeOfDay).map fun w => autoFrame cfg server w.buf
  | .updateHealth => healthBody.map fun w => autoFrame cfg server w.buf
  | .playerAbilities => abilitiesBody.map fun w => autoFrame cfg server w.buf
  | .playerPositionAndLook position =>
    (buildPositionBody 64 position).map fun w => autoFrame cfg server w.buf
  | .chunkData index => chunkFrame cfg server index
  | .keepAlive id => (keepaliveBody id).map fun w => autoFrame cfg server w.buf

/-- The packet that is due before the bootstrap is over. -/
def bootstrapPacket (server : McServer) : TickPacket :=
  if server.playBootstrapStage = mcBootstrapJoinGame then .joinGame
  else if server.playBootstrapStage = mcBootstrapSpawnPosition then .spawnPosition
  else if server.playBootstrapStage = mcBootstrapTime then .timeUpdate server.worldTime
  else if server.playBootstrapStage = mcBootstrapHealth then .updateHealth
  else if server.playBootstrapStage = mcBootstrapAbilities then .playerAbilities
  else if server.playBootstrapStage = mcBootstrapPosition then
    .playerPositionAndLook server.player
  else .chunkData server.playBootstrapChunkIndex

/-- The server once that packet was queued. -/
def afterBootstrapPacket (cfg : McConfig) (server : McServer) : McServer :=
  if server.playBootstrapStage = mcBootstrapChunks then
    { server with
      playBootstrapChunkIndex := server.playBootstrapChunkIndex + 1
      playBootstrapStage :=
        if server.playBootstrapChunkIndex + 1 < bootstrapChunkCount cfg server then
          server.playBootstrapStage
        else server.playBootstrapStage + 1 }
  else { server with playBootstrapStage := server.playBootstrapStage + 1 }

/-- A result that fails and changes nothing, or queues just this packet. -/
def QueuesPacket (cfg : McConfig) (server : McServer) (tx : TxRing) (packet : TickPacket)
    (result : Bool × TxRing) : Prop :=
  result = (false, tx) ∨ ∃ frame, packet.frame cfg server = some frame ∧
    tx.Fits frame ∧ result = (true, tx.push frame)

theorem queueBuilt_queuesPacket {w : Option McWriter} {packet : TickPacket}
    (hframe : packet.frame cfg server = w.map fun w => autoFrame cfg server w.buf) :
    QueuesPacket cfg server tx packet (queueBuilt tx w (queuePacketAuto cfg server)) := by
  cases w with
  | none => exact .inl rfl
  | some built =>
    rcases queuePacketAuto_addsFrame cfg server tx built.buf with hfail | ⟨hfits, hpush⟩
    · exact .inl hfail
    · exact .inr ⟨autoFrame cfg server built.buf, hframe, hfits, hpush⟩

section packets

variable (cfg server tx)

theorem queueJoinGame_queuesPacket :
    QueuesPacket cfg server tx .joinGame (queueJoinGame cfg server tx) := by
  rw [queueJoinGame]
  apply queueBuilt_queuesPacket
  rw [TickPacket.frame]

theorem queueSpawnPosition_queuesPacket :
    QueuesPacket cfg server tx .spawnPosition (queueSpawnPosition cfg server tx) := by
  rw [queueSpawnPosition]
  apply queueBuilt_queuesPacket
  rw [TickPacket.frame]

theorem queueTime_queuesPacket :
    QueuesPacket cfg server tx (.timeUpdate server.worldTime) (queueTime cfg server tx) := by
  rw [queueTime, queueTimeValue]
  apply queueBuilt_queuesPacket
  rw [TickPacket.frame]

theorem queueHealth_queuesPacket :
    QueuesPacket cfg server tx .updateHealth (queueHealth cfg server tx) := by
  rw [queueHealth]
  apply queueBuilt_queuesPacket
  rw [TickPacket.frame]

theorem queueAbilities_queuesPacket :
    QueuesPacket cfg server tx .playerAbilities (queueAbilities cfg server tx) := by
  rw [queueAbilities]
  apply queueBuilt_queuesPacket
  rw [TickPacket.frame]

theorem queuePosition_queuesPacket :
    QueuesPacket cfg server tx (.playerPositionAndLook server.player)
      (queuePosition cfg server tx) := by
  rw [queuePosition, queuePositionAt]
  apply queueBuilt_queuesPacket
  rw [TickPacket.frame]

theorem queueKeepalive_queuesPacket (id : Int32) :
    QueuesPacket cfg server tx (.keepAlive id) (queueKeepalive cfg server tx id) := by
  rw [queueKeepalive]
  apply queueBuilt_queuesPacket
  rw [TickPacket.frame]

end packets

theorem mcWorldQueueSpawnChunk_queuesPacket {index : ℕ}
    (hpsram : ¬(cfg.usePsramCompressedMap ∧ server.compressionEnabled))
    (hplain : ¬(cfg.protocolCompressionEnable ∧ server.compressionEnabled)) :
    QueuesPacket cfg server tx (.chunkData index) (mcWorldQueueSpawnChunk cfg tx index) := by
  have hframe : (TickPacket.chunkData index).frame cfg server =
      (worldSpawnChunks[index]?).bind fun chunk =>
        (mcWorldBuildChunkBody cfg chunk.1 chunk.2 (mcChunkSectionBytes + 32)).map
          (autoFrame cfg server) :=
    if_neg hpsram
  rw [mcWorldQueueSpawnChunk]
  cases hchunk : worldSpawnChunks[index]? with
  | none => exact .inl rfl
  | some chunk =>
    obtain ⟨chunkX, chunkZ⟩ := chunk
    dsimp only
    cases hbody : mcWorldBuildChunkBody cfg chunkX chunkZ (mcChunkSectionBytes + 32) with
    | none => exact .inl rfl
    | some body =>
      have hauto : autoFrame cfg server body = plainFrame body := if_neg hplain
      rcases mcServerQueuePacket_addsFrame tx body with hfail | ⟨hfits, hpush⟩
      · exact .inl hfail
      · refine .inr ⟨plainFrame body, ?_, hfits, hpush⟩
        rw [hframe, hchunk, Option.bind_some, hbody, Option.map_some, hauto]

theorem queueSpawnChunkAuto_queuesPacket {index : ℕ} (hmap : cfg.usePsramCompressedMap = false) :
    QueuesPacket cfg server tx (.chunkData index) (queueSpawnChunkAuto cfg server tx index) := by
  have hpsram : ¬(cfg.usePsramCompressedMap ∧ server.compressionEnabled) :=
    fun h => Bool.false_ne_true (hmap.symm.trans h.1)
  rw [queueSpawnChunkAuto]
  split_ifs with henabled hindex
  · apply mcWorldQueueSpawnChunk_queuesPacket hpsram
    intro h
    rw [h.2] at henabled
    exact absurd henabled (by decide)
  · exact .inl rfl
  · have hframe : (TickPacket.chunkData index).frame cfg server =
        (worldSpawnChunks[index]?).bind fun chunk =>
          (mcWorldBuildChunkBody cfg chunk.1 chunk.2 (mcChunkSectionBytes + 32)).map
            (autoFrame cfg server) :=
      if_neg hpsram
    cases hchunk : worldSpawnChunks[index]? with
    | none => exact .inl rfl
    | some chunk =>
      obtain ⟨chunkX, chunkZ⟩ := chunk
      dsimp only
      cases hbody : mcWorldBuildChunkBody cfg chunkX chunkZ (mcChunkSectionBytes + 32) with
      | none => exact .inl rfl
      | some body =>
        rcases queuePacketAuto_addsFrame cfg server tx body with hfail | ⟨hfits, hpush⟩
        · exact .inl hfail
        · refine .inr ⟨autoFrame cfg server body, ?_, hfits, hpush⟩
          rw [hframe, hchunk, Option.bind_some, hbody, Option.map_some]

theorem mcWorldQueueCompressedSpawnChunk_queuesPacket {index : ℕ}
    (hpsram : cfg.usePsramCompressedMap ∧ server.compressionEnabled) :
    QueuesPacket cfg server tx (.chunkData index)
      (mcWorldQueueCompressedSpawnChunk cfg tx index) := by
  rcases mcWorldQueueCompressedSpawnChunk_cases cfg tx index with
    hfail | ⟨chunk, hchunk, hfail | ⟨hfits, hpush⟩⟩
  · exact .inl hfail
  · exact .inl hfail
  · refine .inr ⟨_, ?_, hfits, hpush⟩
    rw [TickPacket.frame, chunkFrame, if_pos hpsram, hchunk, Option.map_some]

theorem queueBootstrapChunk_queuesPacket (cfg : McConfig) (server : McServer) (tx : TxRing) :
    QueuesPacket cfg server tx (.chunkData server.playBootstrapChunkIndex)
      (queueBootstrapChunk cfg server tx) := by
  rw [queueBootstrapChunk]
  split_ifs with hpsram henabled hcompress
  · exact mcWorldQueueCompressedSpawnChunk_queuesPacket ⟨hpsram.2, henabled⟩
  · exact mcWorldQueueSpawnChunk_queuesPacket (fun h => henabled h.2) (fun h => henabled h.2)
  · apply queueSpawnChunkAuto_queuesPacket
    exact Bool.eq_false_iff.mpr fun hmap => hpsram ⟨hcompress, hmap⟩
  · exact mcWorldQueueSpawnChunk_queuesPacket (fun h => hcompress (cfg.psram_requires h.1))
      (fun h => hcompress h.1)

theorem queueBootstrapStage_queuesPacket (hstage : server.playBootstrapStage < mcBootstrapDone) :
    QueuesPacket cfg server tx (bootstrapPacket server) (queueBootstrapStage cfg server tx) := by
  unfold queueBootstrapStage bootstrapPacket
  by_cases h0 : server.playBootstrapStage = mcBootstrapJoinGame
  · simp only [if_pos h0]
    exact queueJoinGame_queuesPacket cfg server tx
  by_cases h1 : server.playBootstrapStage = mcBootstrapSpawnPosition
  · simp only [if_neg h0, if_pos h1]
    exact queueSpawnPosition_queuesPacket cfg server tx
  by_cases h2 : server.playBootstrapStage = mcBootstrapTime
  · simp only [if_neg h0, if_neg h1, if_pos h2]
    exact queueTime_queuesPacket cfg server tx
  by_cases h3 : server.playBootstrapStage = mcBootstrapHealth
  · simp only [if_neg h0, if_neg h1, if_neg h2, if_pos h3]
    exact queueHealth_queuesPacket cfg server tx
  by_cases h4 : server.playBootstrapStage = mcBootstrapAbilities
  · simp only [if_neg h0, if_neg h1, if_neg h2, if_neg h3, if_pos h4]
    exact queueAbilities_queuesPacket cfg server tx
  by_cases h5 : server.playBootstrapStage = mcBootstrapPosition
  · simp only [if_neg h0, if_neg h1, if_neg h2, if_neg h3, if_neg h4, if_pos h5]
    exact queuePosition_queuesPacket cfg server tx
  have h6 : server.playBootstrapStage = mcBootstrapChunks := by
    dsimp only [mcBootstrapJoinGame, mcBootstrapSpawnPosition, mcBootstrapTime, mcBootstrapHealth,
      mcBootstrapAbilities, mcBootstrapPosition, mcBootstrapDone] at h0 h1 h2 h3 h4 h5 hstage
    show server.playBootstrapStage = 6
    omega
  simp only [if_neg h0, if_neg h1, if_neg h2, if_neg h3, if_neg h4, if_neg h5, if_pos h6]
  exact queueBootstrapChunk_queuesPacket cfg server tx

theorem tickBootstrap_eq (cfg : McConfig) (server : McServer) (tx : TxRing) :
    tickBootstrap cfg server tx =
      if server.playBootstrapStage < mcBootstrapDone then
        let queued := queueBootstrapStage cfg server tx
        if !queued.1 then (false, server, queued.2)
        else if (afterBootstrapPacket cfg server).playBootstrapStage = mcBootstrapChunks then
          (true, afterBootstrapPacket cfg server, queued.2)
        else tickBootstrap cfg (afterBootstrapPacket cfg server) queued.2
      else (true, server, tx) := by
  rw [tickBootstrap]
  by_cases hchunks : server.playBootstrapStage = mcBootstrapChunks
  · by_cases hmore : server.playBootstrapChunkIndex + 1 < bootstrapChunkCount cfg server
    · simp [countBootstrapChunk, afterBootstrapPacket, hchunks, hmore]
    · simp [countBootstrapChunk, afterBootstrapPacket, hchunks, hmore]
  · simp [countBootstrapChunk, afterBootstrapPacket, hchunks]

theorem tickBootstrap_preserves {P : McServer → TxRing → Prop}
    (hpacket : ∀ server tx frame, P server tx → server.state = .play →
      server.playBootstrapSent = false → server.playBootstrapStage < mcBootstrapDone →
      (bootstrapPacket server).frame cfg server = some frame → tx.Fits frame →
      P (afterBootstrapPacket cfg server) (tx.push frame))
    (h : P server tx) (hplay : server.state = .play) (hsent : server.playBootstrapSent = false) :
    P (tickBootstrap cfg server tx).2.1 (tickBootstrap cfg server tx).2.2 ∧
      (tickBootstrap cfg server tx).2.1.state = .play ∧
      (tickBootstrap cfg server tx).2.1.playBootstrapSent = false := by
  induction hn : mcBootstrapDone - server.playBootstrapStage using Nat.strong_induction_on
    generalizing server tx with
  | _ n ih =>
  rw [tickBootstrap_eq]
  by_cases hstage : server.playBootstrapStage < mcBootstrapDone
  case neg =>
    rw [if_neg hstage]
    exact ⟨h, hplay, hsent⟩
  rw [if_pos hstage]
  dsimp only
  have hafter : (afterBootstrapPacket cfg server).state = .play ∧
      (afterBootstrapPacket cfg server).playBootstrapSent = false := by
    unfold afterBootstrapPacket
    split_ifs <;> exact ⟨hplay, hsent⟩
  have hqueue : QueuesPacket cfg server tx _ _ := queueBootstrapStage_queuesPacket hstage
  rcases hqueue with
    hfail | ⟨frame, hframe, hfits, hpush⟩
  · rw [hfail]
    exact ⟨h, hplay, hsent⟩
  · rw [hpush]
    have hnext := hpacket server tx frame h hplay hsent hstage hframe hfits
    dsimp only
    rw [if_neg (by decide)]
    by_cases hchunks : (afterBootstrapPacket cfg server).playBootstrapStage = mcBootstrapChunks
    · rw [if_pos hchunks]
      exact ⟨hnext, hafter⟩
    · -- the stage of the chunks is over, or has not begun
      rw [if_neg hchunks]
      refine ih _ ?_ hnext hafter.1 hafter.2 rfl
      have hstep : server.playBootstrapStage <
          (afterBootstrapPacket cfg server).playBootstrapStage := by
        by_cases hlast : server.playBootstrapStage = mcBootstrapChunks
        · by_cases hmore : server.playBootstrapChunkIndex + 1 < bootstrapChunkCount cfg server
          · simp [afterBootstrapPacket, hlast, hmore] at hchunks
          · simp [afterBootstrapPacket, hlast, hmore]
        · simp [afterBootstrapPacket, hlast]
      omega

/-- When the last KeepAlive is long enough ago; 0 stands for never. -/
def KeepaliveDue (cfg : McConfig) (server : McServer) (nowTicks : UInt32) : Prop :=
  server.lastKeepaliveTick = 0 ∨
    cfg.keepaliveIntervalTicks ≤ elapsedTicks nowTicks server.lastKeepaliveTick

/-- A tick sends bootstrap packets and then at most one KeepAlive, when it is due: `P` holds before
it and `Q` in the end. -/
theorem mcServerTickAt_steps {P Q : McServer → TxRing → Prop} {nowTicks : UInt32}
    (hticks : ∀ server ticks tx, P server tx → P { server with ticks := ticks } tx)
    (hpacket : ∀ server tx frame, P server tx → server.state = .play →
      server.playBootstrapSent = false → server.playBootstrapStage < mcBootstrapDone →
      (bootstrapPacket server).frame cfg server = some frame → tx.Fits frame →
      P (afterBootstrapPacket cfg server) (tx.push frame))
    (hdone : ∀ server tx, P server tx → server.state = .play →
      mcBootstrapDone ≤ server.playBootstrapStage → P { server with playBootstrapSent := true } tx)
    (hkeepalive : ∀ server tx frame, P server tx → server.state = .play →
      server.playBootstrapSent = true → KeepaliveDue cfg server nowTicks →
      (TickPacket.keepAlive (nextKeepaliveId server)).frame cfg server = some frame →
      tx.Fits frame →
      Q { server with
          keepaliveId := nextKeepaliveId server, keepalivePending := true
          lastKeepaliveTick := nowTicks } (tx.push frame))
    (hnone : ∀ server tx, P server tx → Q server tx) (h : P server tx) :
    Q (mcServerTickAt cfg server tx nowTicks).2.1 (mcServerTickAt cfg server tx nowTicks).2.2 := by
  have hkeep : ∀ server tx, P server tx →
      Q (tickKeepalive cfg server tx nowTicks).2.1 (tickKeepalive cfg server tx nowTicks).2.2 := by
    intro server tx h
    rw [tickKeepalive]
    split_ifs with hidle hearly
    · exact hnone _ _ h
    · exact hnone _ _ h
    · rw [not_or, not_not] at hidle
      have hdue : KeepaliveDue cfg server nowTicks := by
        by_cases hlast : server.lastKeepaliveTick = 0
        · exact .inl hlast
        · exact .inr (UInt32.not_lt.mp fun hlt => hearly ⟨hlast, hlt⟩)
      dsimp only
      rcases queueKeepalive_queuesPacket cfg server tx (nextKeepaliveId server) with
        hfail | ⟨frame, hframe, hfits, hpush⟩
      · rw [hfail]
        exact hnone _ _ h
      · rw [hpush]
        exact hkeepalive server tx frame h hidle.1 (by simpa using hidle.2) hdue hframe hfits
  rw [mcServerTickAt]
  have hstart := hticks server (server.ticks + 1) tx h
  split_ifs with hboot
  · have hbooted := tickBootstrap_preserves hpacket hstart hboot.1 (by simpa using hboot.2)
    dsimp only
    split_ifs with hfail hover
    · exact hnone _ _ hbooted.1
    · exact hkeep _ _ (hdone _ _ hbooted.1 hbooted.2.1 hover)
    · exact hkeep _ _ hbooted.1
  · exact hkeep _ _ hstart

/-- What every packet of a tick preserves, the tick preserves. -/
theorem mcServerTickAt_preserves {P : McServer → TxRing → Prop} {nowTicks : UInt32}
    (hticks : ∀ server ticks tx, P server tx → P { server with ticks := ticks } tx)
    (hpacket : ∀ server tx frame, P server tx → server.state = .play →
      server.playBootstrapSent = false → server.playBootstrapStage < mcBootstrapDone →
      (bootstrapPacket server).frame cfg server = some frame → tx.Fits frame →
      P (afterBootstrapPacket cfg server) (tx.push frame))
    (hdone : ∀ server tx, P server tx → server.state = .play →
      mcBootstrapDone ≤ server.playBootstrapStage → P { server with playBootstrapSent := true } tx)
    (hkeepalive : ∀ server tx frame, P server tx → server.state = .play →
      server.playBootstrapSent = true →
      (TickPacket.keepAlive (nextKeepaliveId server)).frame cfg server = some frame →
      tx.Fits frame →
      P { server with
          keepaliveId := nextKeepaliveId server, keepalivePending := true
          lastKeepaliveTick := nowTicks } (tx.push frame))
    (h : P server tx) :
    P (mcServerTickAt cfg server tx nowTicks).2.1 (mcServerTickAt cfg server tx nowTicks).2.2 :=
  mcServerTickAt_steps hticks hpacket hdone
    (fun server tx frame h hplay hsent _ => hkeepalive server tx frame h hplay hsent)
    (fun _ _ h => h) h

end StarrySky.Core
