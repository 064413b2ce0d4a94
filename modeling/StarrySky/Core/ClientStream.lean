import StarrySky.Core.ServerInvariant

/-! The stream from the server as a client reads it: plain frames up to the Set Compression
packet, frames with a data length after it. -/

namespace StarrySky.Core
open StarrySky.Base

inductive ClientFrame
  | plain (body : List UInt8)
  | compressed (dataLen : ℕ) (data : List UInt8)
deriving DecidableEq

def takeFrame (bytes : List UInt8) : Option (List UInt8 × List UInt8) :=
  match takeVarint bytes with
  | none => none
  | some (length, rest) =>
    if length ≤ rest.length then some (rest.take length, rest.drop length) else none

theorem length_takeVarint_lt {bytes rest : List UInt8} {value : ℕ}
    (h : takeVarint bytes = some (value, rest)) : rest.length < bytes.length := by
  induction bytes generalizing value with
  | nil => simp [takeVarint] at h
  | cons byte bytes ih =>
    rw [takeVarint] at h
    split_ifs at h
    · obtain ⟨-, rfl⟩ := Prod.mk.inj (Option.some.inj h)
      exact Nat.lt_succ_self _
    · cases htail : takeVarint bytes with
      | none => simp [htail] at h
      | some taken =>
        obtain ⟨value', rest'⟩ := taken
        simp only [htail] at h
        obtain ⟨-, rfl⟩ := Prod.mk.inj (Option.some.inj h)
        exact (ih htail).trans (Nat.lt_succ_self _)

theorem length_takeFrame_lt {bytes content rest : List UInt8}
    (h : takeFrame bytes = some (content, rest)) : rest.length < bytes.length := by
  rw [takeFrame] at h
  cases htake : takeVarint bytes with
  | none => simp [htake] at h
  | some taken =>
    obtain ⟨length, rest'⟩ := taken
    simp only [htake] at h
    split_ifs at h
    obtain ⟨-, rfl⟩ := Prod.mk.inj (Option.some.inj h)
    rw [List.length_drop]
    exact lt_of_le_of_lt (Nat.sub_le _ _) (length_takeVarint_lt htake)

/-- Packet 3 of the login state. -/
def isSetCompression (body : List UInt8) : Bool := (takeVarint body).map Prod.fst = some 3

def decodeFrames (compressed : Bool) (bytes : List UInt8) : Option (List ClientFrame) :=
  if bytes = [] then some []
  else
    match _h : takeFrame bytes with
    | none => none
    | some (content, rest) =>
      if compressed then
        match takeVarint content with
        | none => none
        | some (dataLen, data) => (decodeFrames true rest).map (.compressed dataLen data :: ·)
      else (decodeFrames (isSetCompression content) rest).map (.plain content :: ·)
termination_by bytes.length
decreasing_by all_goals exact length_takeFrame_lt _h

def clientDecode (bytes : List UInt8) : Option (List ClientFrame) := decodeFrames false bytes

theorem takeFrame_plainFrame {body : List UInt8} (h : (plainFrame body).length ≤ mcMaxFrame)
    (rest : List UInt8) : takeFrame (plainFrame body ++ rest) = some (body, rest) := by
  have hlength : body.length < 2 ^ 31 := by
    rw [plainFrame, List.length_append] at h
    have : mcMaxFrame < 2 ^ 31 := by decide
    omega
  rw [takeFrame, plainFrame, List.append_assoc, (isVarint_ofNat hlength).take]
  dsimp only
  rw [List.length_append, if_pos (Nat.le_add_right _ _), List.take_left, List.drop_left]

theorem plainFrame_append_ne_nil (body rest : List UInt8) : plainFrame body ++ rest ≠ [] := by
  have hpos := (isVarint_varintBytes (Int32.ofNat body.length)).length_pos
  intro hnil
  have := congrArg List.length hnil
  rw [plainFrame, List.length_append, List.length_append] at this
  rw [List.length_nil] at this
  omega

theorem decodeFrames_plainFrame {body : List UInt8} (h : (plainFrame body).length ≤ mcMaxFrame)
    (rest : List UInt8) :
    decodeFrames false (plainFrame body ++ rest) =
      (decodeFrames (isSetCompression body) rest).map (.plain body :: ·) := by
  have htake := takeFrame_plainFrame h rest
  rw [decodeFrames, if_neg (plainFrame_append_ne_nil body rest)]
  split
  case h_1 hnone => exact absurd (htake.symm.trans hnone) (by simp)
  case h_2 content rest' hsome =>
    obtain ⟨rfl, rfl⟩ := Prod.mk.inj (Option.some.inj (htake.symm.trans hsome))
    rw [if_neg Bool.false_ne_true]

theorem decodeFrames_compressedFrame {dataLen : Int32} {data : List UInt8}
    (h : (compressedFrame dataLen data).length ≤ mcMaxFrame) (rest : List UInt8) :
    decodeFrames true (compressedFrame dataLen data ++ rest) =
      (decodeFrames true rest).map (.compressed dataLen.toUInt32.toNat data :: ·) := by
  have htake := takeFrame_plainFrame h rest
  rw [compressedFrame, decodeFrames, if_neg (plainFrame_append_ne_nil _ rest)]
  split
  case h_1 hnone => exact absurd (htake.symm.trans hnone) (by simp)
  case h_2 content rest' hsome =>
    obtain ⟨rfl, rfl⟩ := Prod.mk.inj (Option.some.inj (htake.symm.trans hsome))
    rw [if_pos rfl, (isVarint_varintBytes dataLen).take]

theorem decodeFrames_nil (compressed : Bool) : decodeFrames compressed [] = some [] := by
  rw [decodeFrames, if_pos rfl]

/-- A stream of plain frames, none of which changes the framing. -/
def PlainStream (stream : List UInt8) : Prop :=
  ∃ bodies : List (List UInt8), stream = (bodies.map plainFrame).flatten ∧
    ∀ body ∈ bodies, (plainFrame body).length ≤ mcMaxFrame ∧ isSetCompression body = false

/-- The data length and the data of a frame behind the Set Compression packet: a plain body, or
an asset with its raw length. -/
def SentCompressed (cfg : McConfig) (frame : Int32 × List UInt8) : Prop :=
  frame.1 = 0 ∨ ∃ chunk ∈ cfg.compressedAssets,
    frame = (chunk.rawBodyLen.toInt32, chunk.compressed)

/-- A stream with a Set Compression packet in it and only compressed frames after it. -/
def SwitchedStream (cfg : McConfig) (stream : List UInt8) : Prop :=
  ∃ (before setCompression : List UInt8) (frames : List (Int32 × List UInt8)),
    stream = before ++ (plainFrame setCompression ++
      (frames.map fun frame => compressedFrame frame.1 frame.2).flatten) ∧
    PlainStream before ∧ (plainFrame setCompression).length ≤ mcMaxFrame ∧
    isSetCompression setCompression = true ∧
    ∀ frame ∈ frames, (compressedFrame frame.1 frame.2).length ≤ mcMaxFrame ∧
      SentCompressed cfg frame

theorem PlainStream.decodeFrames {stream : List UInt8} (h : PlainStream stream)
    {rest : List UInt8} {frames : List ClientFrame}
    (hrest : decodeFrames false rest = some frames) :
    ∃ bodies : List (List UInt8),
      StarrySky.Core.decodeFrames false (stream ++ rest) =
        some (bodies.map .plain ++ frames) := by
  obtain ⟨bodies, rfl, hbodies⟩ := h
  refine ⟨bodies, ?_⟩
  induction bodies with
  | nil => simpa using hrest
  | cons body bodies ih =>
    obtain ⟨hlength, hplain⟩ := hbodies body List.mem_cons_self
    have htail := ih fun b hb => hbodies b (List.mem_cons_of_mem _ hb)
    rw [List.map_cons, List.flatten_cons, List.append_assoc, decodeFrames_plainFrame hlength,
      hplain, htail]
    rfl

theorem decodeFrames_compressed {cfg : McConfig} {frames : List (Int32 × List UInt8)}
    (h : ∀ frame ∈ frames, (compressedFrame frame.1 frame.2).length ≤ mcMaxFrame ∧
      SentCompressed cfg frame) :
    decodeFrames true (frames.map fun frame => compressedFrame frame.1 frame.2).flatten =
      some (frames.map fun frame => .compressed frame.1.toUInt32.toNat frame.2) := by
  induction frames with
  | nil => exact decodeFrames_nil true
  | cons frame frames ih =>
    have htail := ih fun f hf => h f (List.mem_cons_of_mem _ hf)
    rw [List.map_cons, List.flatten_cons,
      decodeFrames_compressedFrame (h frame List.mem_cons_self).1, htail]
    rfl

/-- What the client may find in a frame with a data length. -/
def ClientFrame.Known (cfg : McConfig) : ClientFrame → Prop
  | .plain _ => True
  | .compressed dataLen data =>
    dataLen = 0 ∨ ∃ chunk ∈ cfg.compressedAssets,
      dataLen = chunk.rawBodyLen.toNat ∧ data = chunk.compressed

theorem SentCompressed.known {cfg : McConfig} {frame : Int32 × List UInt8}
    (h : SentCompressed cfg frame) :
    (ClientFrame.compressed frame.1.toUInt32.toNat frame.2).Known cfg := by
  rcases h with hzero | ⟨chunk, hchunk, rfl⟩
  · left
    rw [hzero]
    rfl
  · right
    refine ⟨chunk, hchunk, ?_, rfl⟩
    rw [UInt32.toUInt32_toInt32]

theorem PlainStream.clientDecode {stream : List UInt8} (h : PlainStream stream) (cfg : McConfig) :
    ∃ frames, clientDecode stream = some frames ∧ ∀ frame ∈ frames, frame.Known cfg := by
  obtain ⟨bodies, hdecode⟩ := h.decodeFrames (decodeFrames_nil false)
  rw [List.append_nil] at hdecode
  refine ⟨_, hdecode, ?_⟩
  intro frame hframe
  rw [List.append_nil] at hframe
  obtain ⟨body, _, rfl⟩ := List.mem_map.mp hframe
  trivial

theorem SwitchedStream.clientDecode {cfg : McConfig} {stream : List UInt8}
    (h : SwitchedStream cfg stream) :
    ∃ frames, clientDecode stream = some frames ∧ ∀ frame ∈ frames, frame.Known cfg := by
  obtain ⟨before, setCompression, frames, rfl, hbefore, hlength, hset, hframes⟩ := h
  have hswitch := decodeFrames_plainFrame hlength
    (frames.map fun frame => compressedFrame frame.1 frame.2).flatten
  rw [hset, decodeFrames_compressed hframes] at hswitch
  obtain ⟨bodies, hdecode⟩ := hbefore.decodeFrames hswitch
  refine ⟨_, hdecode, ?_⟩
  intro frame hframe
  rcases List.mem_append.mp hframe with hplain | hrest
  · obtain ⟨body, _, rfl⟩ := List.mem_map.mp hplain
    trivial
  · rcases List.mem_cons.mp hrest with rfl | hcompressed
    · trivial
    · obtain ⟨sent, hsent, rfl⟩ := List.mem_map.mp hcompressed
      exact (hframes sent hsent).2.known

/-! The server's side. -/

variable {cfg : McConfig} {server : McServer} {tx : TxRing}

/-- The stream is in the framing that the server is in. -/
def StreamInMode (cfg : McConfig) (server : McServer) (tx : TxRing) : Prop :=
  if server.compressionEnabled then SwitchedStream cfg tx.history else PlainStream tx.history

theorem streamInMode_plain (hmode : server.compressionEnabled = false) :
    StreamInMode cfg server tx ↔ PlainStream tx.history := by
  rw [StreamInMode, hmode, if_neg Bool.false_ne_true]

theorem streamInMode_switched (hmode : server.compressionEnabled = true) :
    StreamInMode cfg server tx ↔ SwitchedStream cfg tx.history := by
  rw [StreamInMode, if_pos hmode]

theorem PlainStream.push {body : List UInt8} (h : PlainStream tx.history)
    (hfits : tx.Fits (plainFrame body)) (hplain : isSetCompression body = false) :
    PlainStream (tx.push (plainFrame body)).history := by
  obtain ⟨bodies, hhistory, hbodies⟩ := h
  refine ⟨bodies ++ [body], ?_, ?_⟩
  · rw [TxRing.history_push hfits.free, hhistory]
    simp
  · intro b hb
    rcases List.mem_append.mp hb with hb | hb
    · exact hbodies b hb
    · rw [List.mem_singleton.mp hb]
      exact ⟨hfits.bound, hplain⟩

theorem SwitchedStream.append {stream : List UInt8} (h : SwitchedStream cfg stream)
    {more : List (Int32 × List UInt8)}
    (hmore : ∀ frame ∈ more, (compressedFrame frame.1 frame.2).length ≤ mcMaxFrame ∧
      SentCompressed cfg frame) :
    SwitchedStream cfg
      (stream ++ (more.map fun frame => compressedFrame frame.1 frame.2).flatten) := by
  obtain ⟨before, setCompression, frames, rfl, hbefore, hlength, hset, hframes⟩ := h
  refine ⟨before, setCompression, frames ++ more, ?_, hbefore, hlength, hset, ?_⟩
  · simp
  · intro frame hframe
    rcases List.mem_append.mp hframe with hframe | hframe
    · exact hframes frame hframe
    · exact hmore frame hframe

theorem isSetCompression_status {id : UInt8} (hid : id = 0 ∨ id = 1) (rest : List UInt8) :
    isSetCompression (id :: rest) = false := by
  rcases hid with rfl | rfl
  · rfl
  · rfl

theorem isSetCompression_three (rest : List UInt8) : isSetCompression (3 :: rest) = true := rfl

theorem StreamInMode.packetStep (h : StreamInMode cfg server tx) (hserver : server.Consistent cfg)
    (hcfg : cfg.protocolCompressionEnable = true) {result : Bool × McServer × TxRing}
    (hstep : PacketStep cfg server tx result) : StreamInMode cfg result.2.1 result.2.2 := by
  have hmode := hserver.compression hcfg
  have hplain : server.state ≠ .play → server.compressionEnabled = false := fun hstate =>
    Bool.eq_false_iff.mpr fun henabled => hstate (hmode.mp henabled)
  cases hstep with
  | reject => exact h
  | ignore => exact h
  | acceptHandshake hstate next hnext =>
    rw [streamInMode_plain rfl]
    exact ⟨[], rfl, fun body hbody => absurd hbody List.not_mem_nil⟩
  | badNextState hstate =>
    rw [streamInMode_plain rfl]
    rwa [streamInMode_plain (hplain hstate)] at h
  | answerStatus hstate id hid rest hfits =>
    have hmode := hplain (by rw [hstate]; decide)
    rw [streamInMode_plain hmode] at h ⊢
    exact h.push hfits (isSetCompression_status hid rest)
  | loginCompressed _ hstate text htext hname success hsuccess hfits =>
    have hmode := hplain (by rw [hstate]; decide)
    rw [streamInMode_plain hmode] at h
    rw [streamInMode_switched rfl]
    refine ⟨tx.history, 3 :: varintBytes server.compressionThreshold, [(0, success.buf)], ?_, h,
      ?_, isSetCompression_three _, ?_⟩
    · rw [TxRing.history_push hfits]
      simp
    · have hthreshold := length_varintBytes_le server.compressionThreshold
      refine (length_plainFrame_le _).trans ?_
      rw [List.length_cons]
      exact (Nat.add_le_add_right (Nat.succ_le_succ hthreshold) 5).trans (by decide)
    · intro frame hframe
      rw [List.mem_singleton.mp hframe]
      have hsuccessLen := length_buildLoginSuccessBody_le hsuccess
      refine ⟨(length_compressedFrame_zero_le _).trans ?_, .inl rfl⟩
      exact (Nat.add_le_add_right hsuccessLen 6).trans (by decide)
  | loginPlain hplainCfg => exact absurd (hplainCfg.symm.trans hcfg) Bool.false_ne_true
  | keepalive hstate => exact h
  | movement hstate player onGround => exact h
  | chat hstate message result hresult packets hpackets hbodies hfits =>
    have henabled := hmode.mpr hstate
    have hafter : (applyCommandResult server result).compressionEnabled = true := by
      unfold applyCommandResult
      split <;> exact henabled
    rw [streamInMode_switched henabled] at h
    rw [streamInMode_switched hafter, TxRing.history_push hfits]
    have hframes : packets.map (autoFrame cfg server) =
        (packets.map fun body => ((0 : Int32), body)).map
          fun frame => compressedFrame frame.1 frame.2 := by
      rw [List.map_map]
      apply List.map_congr_left
      intro body _
      exact if_pos ⟨hcfg, henabled⟩
    rw [hframes]
    apply h.append
    intro frame hframe
    obtain ⟨body, hbody, rfl⟩ := List.mem_map.mp hframe
    refine ⟨(length_compressedFrame_zero_le body).trans ?_, .inl rfl⟩
    exact Nat.add_le_add_right (hbodies body hbody) 6

theorem TickPacket.frame_cases {packet : TickPacket} {frame : List UInt8}
    (hcfg : cfg.protocolCompressionEnable = true) (henabled : server.compressionEnabled = true)
    (h : packet.frame cfg server = some frame) :
    ∃ sent, frame = compressedFrame sent.1 sent.2 ∧ SentCompressed cfg sent := by
  have hauto : ∀ body, autoFrame cfg server body = compressedFrame 0 body :=
    fun body => if_pos ⟨hcfg, henabled⟩
  have hbuilt : ∀ w : Option McWriter, (w.map fun w => autoFrame cfg server w.buf) = some frame →
      ∃ sent, frame = compressedFrame sent.1 sent.2 ∧ SentCompressed cfg sent := by
    intro w hw
    obtain ⟨built, _, rfl⟩ := Option.map_eq_some_iff.mp hw
    exact ⟨(0, built.buf), hauto _, .inl rfl⟩
  cases packet with
  | joinGame =>
    rw [TickPacket.frame] at h
    exact hbuilt _ h
  | spawnPosition =>
    rw [TickPacket.frame] at h
    exact hbuilt _ h
  | timeUpdate timeOfDay =>
    rw [TickPacket.frame] at h
    exact hbuilt _ h
  | updateHealth =>
    rw [TickPacket.frame] at h
    exact hbuilt _ h
  | playerAbilities =>
    rw [TickPacket.frame] at h
    exact hbuilt _ h
  | playerPositionAndLook position =>
    rw [TickPacket.frame] at h
    exact hbuilt _ h
  | keepAlive id =>
    rw [TickPacket.frame] at h
    exact hbuilt _ h
  | chunkData index =>
    rw [TickPacket.frame, chunkFrame] at h
    split_ifs at h with hpsram
    · obtain ⟨chunk, hchunk, rfl⟩ := Option.map_eq_some_iff.mp h
      exact ⟨(chunk.rawBodyLen.toInt32, chunk.compressed), rfl,
        .inr ⟨chunk, mem_compressedAssets hchunk, rfl⟩⟩
    · obtain ⟨chunk, _, hbody⟩ := Option.bind_eq_some_iff.mp h
      obtain ⟨body, _, rfl⟩ := Option.map_eq_some_iff.mp hbody
      exact ⟨(0, body), hauto body, .inl rfl⟩

theorem StreamInMode.push_tickPacket (h : StreamInMode cfg server tx)
    (hcfg : cfg.protocolCompressionEnable = true) (henabled : server.compressionEnabled = true)
    {packet : TickPacket} {frame : List UInt8} (hframe : packet.frame cfg server = some frame)
    (hfits : tx.Fits frame) : SwitchedStream cfg (tx.push frame).history := by
  rw [streamInMode_switched henabled] at h
  obtain ⟨sent, rfl, hsent⟩ := TickPacket.frame_cases hcfg henabled hframe
  rw [TxRing.history_push hfits.free]
  have hmore : ∀ frame ∈ [sent], (compressedFrame frame.1 frame.2).length ≤ mcMaxFrame ∧
      SentCompressed cfg frame := by
    intro frame hframe
    rw [List.mem_singleton.mp hframe]
    exact ⟨hfits.bound, hsent⟩
  have hone := h.append hmore
  simpa using hone

theorem StreamInMode.receive (h : StreamInMode cfg server tx) (hserver : server.Consistent cfg)
    (hcfg : cfg.protocolCompressionEnable = true) (bytes : List UInt8) :
    StreamInMode cfg (mcServerReceive cfg server bytes tx).2.1
      (mcServerReceive cfg server bytes tx).2.2 := by
  apply And.right
  apply mcServerReceive_preserves
    (P := fun server tx => server.Consistent cfg ∧ StreamInMode cfg server tx) (h := ⟨hserver, h⟩)
  · intro server body tx h
    have hstep := handlePacket_step cfg server body tx
    exact ⟨h.1.packetStep hstep, h.2.packetStep h.1 hcfg hstep⟩
  · intro server rxAccum tx h
    exact ⟨h.1.withAccum rxAccum, h.2⟩

theorem StreamInMode.tickAt (h : StreamInMode cfg server tx) (hserver : server.Consistent cfg)
    (hcfg : cfg.protocolCompressionEnable = true) (nowTicks : UInt32) :
    StreamInMode cfg (mcServerTickAt cfg server tx nowTicks).2.1
      (mcServerTickAt cfg server tx nowTicks).2.2 := by
  apply And.right
  apply mcServerTickAt_preserves
    (P := fun server tx => (cfg.protocolCompressionEnable = true →
      (server.compressionEnabled = true ↔ server.state = .play)) ∧ StreamInMode cfg server tx)
    (h := ⟨hserver.compression, h⟩)
  case hticks =>
    intro server ticks tx h
    exact h
  case hpacket =>
    intro server tx frame h hplay _ _ hframe hfits
    have hsame : (afterBootstrapPacket cfg server).compressionEnabled =
        server.compressionEnabled ∧ (afterBootstrapPacket cfg server).state = server.state := by
      unfold afterBootstrapPacket
      split_ifs <;> exact ⟨rfl, rfl⟩
    have henabled := (h.1 hcfg).mpr hplay
    refine ⟨by rw [hsame.1, hsame.2]; exact h.1, ?_⟩
    rw [streamInMode_switched (hsame.1.trans henabled)]
    exact h.2.push_tickPacket hcfg henabled hframe hfits
  case hdone =>
    intro server tx h _ _
    exact h
  case hkeepalive =>
    intro server tx frame h hplay _ hframe hfits
    have henabled := (h.1 hcfg).mpr hplay
    refine ⟨h.1, ?_⟩
    apply (streamInMode_switched _).mpr (h.2.push_tickPacket hcfg henabled hframe hfits)
    exact henabled

/-- The calls made to a server and its transmit ring. -/
inductive StreamOp
  | receive (bytes : List UInt8)
  | tickAt (nowTicks : UInt32)
  | takeTxReset
  | drain (count : ℕ)

def TxRing.drain (tx : TxRing) (count : ℕ) : TxRing := { tx with ring := tx.ring.drop count }

def streamStep (cfg : McConfig) (s : McServer × TxRing) : StreamOp → McServer × TxRing
  | .receive bytes => (mcServerReceive cfg s.1 bytes s.2).2
  | .tickAt nowTicks => (mcServerTickAt cfg s.1 s.2 nowTicks).2
  | .takeTxReset => ((mcServerTakeTxReset s.1).2, s.2)
  | .drain count => (s.1, s.2.drain count)

def streamRun (cfg : McConfig) : McServer × TxRing → List StreamOp → McServer × TxRing
  | s, [] => s
  | s, op :: ops => streamRun cfg (streamStep cfg s op) ops

def streamStart (cfg : McConfig) (txCap : ℕ) : McServer × TxRing :=
  (mcServerInit cfg, { ring := Ringbuf.init txCap, history := [] })

theorem streamRun_preserves {P : McServer × TxRing → Prop}
    (hstep : ∀ s op, P s → P (streamStep cfg s op)) (ops : List StreamOp) {s : McServer × TxRing}
    (h : P s) : P (streamRun cfg s ops) := by
  induction ops generalizing s with
  | nil => exact h
  | cons op ops ih => exact ih (hstep s op h)

theorem streamStep_inMode (hcfg : cfg.protocolCompressionEnable = true) (s : McServer × TxRing)
    (op : StreamOp) (h : s.1.Consistent cfg ∧ StreamInMode cfg s.1 s.2) :
    (streamStep cfg s op).1.Consistent cfg ∧
      StreamInMode cfg (streamStep cfg s op).1 (streamStep cfg s op).2 := by
  cases op with
  | receive bytes => exact ⟨h.1.receive bytes s.2, h.2.receive h.1 hcfg bytes⟩
  | tickAt nowTicks => exact ⟨h.1.tickAt s.2 nowTicks, h.2.tickAt h.1 hcfg nowTicks⟩
  | takeTxReset => exact ⟨h.1.takeTxReset, h.2⟩
  | drain count => exact h

theorem streamRun_inMode (hcfg : cfg.protocolCompressionEnable = true) (txCap : ℕ)
    (ops : List StreamOp) :
    StreamInMode cfg (streamRun cfg (streamStart cfg txCap) ops).1
      (streamRun cfg (streamStart cfg txCap) ops).2 := by
  apply And.right
  apply streamRun_preserves (P := fun s => s.1.Consistent cfg ∧ StreamInMode cfg s.1 s.2)
    (streamStep_inMode hcfg)
  refine ⟨consistent_mcServerInit cfg, (streamInMode_plain rfl).mpr ?_⟩
  exact ⟨[], rfl, fun body hbody => absurd hbody List.not_mem_nil⟩

/-! What is in the ring is the end of what was enqueued. -/

theorem TxRing.suffix_push {frame : List UInt8} (h : tx.ring.items <:+ tx.history)
    (hfits : frame.length ≤ tx.free) : (tx.push frame).ring.items <:+ (tx.push frame).history := by
  rw [history_push hfits]
  show (tx.ring.write frame).2.items <:+ _
  rw [(Ringbuf.write_of_le hfits).2]
  obtain ⟨drained, hdrained⟩ := h
  exact ⟨drained, by rw [← hdrained, List.append_assoc]⟩

theorem suffix_packetStep (h : tx.ring.items <:+ tx.history) {result : Bool × McServer × TxRing}
    (hstep : PacketStep cfg server tx result) :
    result.2.2.ring.items <:+ result.2.2.history := by
  cases hstep with
  | reject => exact h
  | ignore => exact h
  | acceptHandshake hstate next hnext =>
    show tx.ring.items.drop tx.ring.items.length <:+ []
    rw [List.drop_length]
  | badNextState hstate => exact h
  | answerStatus hstate id hid rest hfits => exact tx.suffix_push h hfits.free
  | loginCompressed _ hstate text htext hname success hsuccess hfits => exact tx.suffix_push h hfits
  | loginPlain _ hstate text htext hname success hsuccess hfits =>
    exact tx.suffix_push h hfits.free
  | keepalive hstate => exact h
  | movement hstate player onGround => exact h
  | chat hstate message result hresult packets hpackets hbodies hfits =>
    exact tx.suffix_push h hfits

theorem streamRun_suffix (cfg : McConfig) (txCap : ℕ) (ops : List StreamOp) :
    (streamRun cfg (streamStart cfg txCap) ops).2.ring.items <:+
      (streamRun cfg (streamStart cfg txCap) ops).2.history := by
  apply streamRun_preserves (P := fun s => s.2.ring.items <:+ s.2.history)
  case h => exact List.suffix_rfl
  intro s op h
  cases op with
  | receive bytes =>
    exact mcServerReceive_preserves (P := fun _ tx => tx.ring.items <:+ tx.history)
      (fun server body tx h => suffix_packetStep h (handlePacket_step cfg server body tx))
      (fun _ _ _ h => h) bytes h
  | tickAt nowTicks =>
    exact mcServerTickAt_preserves (P := fun _ tx => tx.ring.items <:+ tx.history)
      (fun _ _ _ h => h) (fun _ tx _ h _ _ _ _ hfits => tx.suffix_push h hfits.free)
      (fun _ _ h _ _ => h) (fun _ tx _ h _ _ _ hfits => tx.suffix_push h hfits.free) h
  | takeTxReset => exact h
  | drain count => exact (List.drop_suffix count _).trans h

/-! The functions that enqueue a packet. -/

inductive EnqueueOp
  | packet (body : List UInt8)
  | compressedPlain (body : List UInt8)
  | auto (body : List UInt8)
  | statusResponse
  | pong (payload : List UInt8)
  | loginSuccess (username : List UInt8)
  | joinGame
  | spawnPosition
  | timeValue (timeOfDay : Int32)
  | time
  | health
  | abilities
  | positionAt (position : McCommandPosition)
  | position
  | keepalive (id : Int32)
  | worldSpawnChunk (index : ℕ)
  | compressedSpawnChunk (index : ℕ)
  | bootstrapChunk

def enqueue (cfg : McConfig) (server : McServer) (tx : TxRing) : EnqueueOp → Bool × TxRing
  | .packet body => mcServerQueuePacket tx body
  | .compressedPlain body => queuePacketCompressedPlain tx body
  | .auto body => queuePacketAuto cfg server tx body
  | .statusResponse => queueStatusResponse tx
  | .pong payload => queuePong tx payload
  | .loginSuccess username => queueLoginSuccess tx username
  | .joinGame => queueJoinGame cfg server tx
  | .spawnPosition => queueSpawnPosition cfg server tx
  | .timeValue timeOfDay => queueTimeValue cfg server tx timeOfDay
  | .time => queueTime cfg server tx
  | .health => queueHealth cfg server tx
  | .abilities => queueAbilities cfg server tx
  | .positionAt position => queuePositionAt cfg server tx position
  | .position => queuePosition cfg server tx
  | .keepalive id => queueKeepalive cfg server tx id
  | .worldSpawnChunk index => mcWorldQueueSpawnChunk cfg tx index
  | .compressedSpawnChunk index => mcWorldQueueCompressedSpawnChunk cfg tx index
  | .bootstrapChunk => queueBootstrapChunk cfg server tx

/-- A failure that leaves the ring as it was, or one more whole frame behind what was there. -/
def EnqueuesOneFrame (tx : TxRing) (result : Bool × TxRing) : Prop :=
  result = (false, tx) ∨ result.1 = true ∧ ∃ frame content,
    takeFrame frame = some (content, []) ∧ result.2.history = tx.history ++ frame ∧
    result.2.ring.items = tx.ring.items ++ frame

theorem AddsFrame.enqueuesOneFrame {body : List UInt8} {result : Bool × TxRing}
    (h : AddsFrame tx (plainFrame body) result) : EnqueuesOneFrame tx result := by
  rcases h with hfail | ⟨hfits, rfl⟩
  · exact .inl hfail
  · have htake := takeFrame_plainFrame hfits.bound []
    rw [List.append_nil] at htake
    exact .inr ⟨rfl, plainFrame body, body, htake, TxRing.history_push hfits.free,
      (Ringbuf.write_of_le hfits.free).2⟩

theorem queuePacketAuto_enqueuesOneFrame (cfg : McConfig) (server : McServer) (tx : TxRing)
    (body : List UInt8) : EnqueuesOneFrame tx (queuePacketAuto cfg server tx body) := by
  unfold queuePacketAuto
  split_ifs
  · exact (queuePacketCompressedPlain_addsFrame tx body).enqueuesOneFrame
  · exact (mcServerQueuePacket_addsFrame tx body).enqueuesOneFrame

theorem queueBuilt_enqueuesOneFrame {w : Option McWriter}
    {queue : TxRing → List UInt8 → Bool × TxRing}
    (hqueue : ∀ body, EnqueuesOneFrame tx (queue tx body)) :
    EnqueuesOneFrame tx (queueBuilt tx w queue) := by
  cases w with
  | none => exact .inl rfl
  | some built => exact hqueue built.buf

theorem mcWorldQueueSpawnChunk_enqueuesOneFrame (cfg : McConfig) (tx : TxRing) (index : ℕ) :
    EnqueuesOneFrame tx (mcWorldQueueSpawnChunk cfg tx index) := by
  rcases mcWorldQueueSpawnChunk_cases cfg tx index with hfail | ⟨body, hbody⟩
  · exact .inl hfail
  · rw [hbody]
    exact (mcServerQueuePacket_addsFrame tx body).enqueuesOneFrame

theorem mcWorldQueueCompressedSpawnChunk_enqueuesOneFrame (cfg : McConfig) (tx : TxRing)
    (index : ℕ) : EnqueuesOneFrame tx (mcWorldQueueCompressedSpawnChunk cfg tx index) := by
  rcases mcWorldQueueCompressedSpawnChunk_cases cfg tx index with hfail | ⟨chunk, _, hadds⟩
  · exact .inl hfail
  · exact hadds.enqueuesOneFrame

theorem queueBootstrapChunk_enqueuesOneFrame (cfg : McConfig) (server : McServer) (tx : TxRing) :
    EnqueuesOneFrame tx (queueBootstrapChunk cfg server tx) := by
  rw [queueBootstrapChunk]
  split_ifs
  · exact mcWorldQueueCompressedSpawnChunk_enqueuesOneFrame cfg tx _
  · exact mcWorldQueueSpawnChunk_enqueuesOneFrame cfg tx _
  · rw [queueSpawnChunkAuto]
    split_ifs
    · exact mcWorldQueueSpawnChunk_enqueuesOneFrame cfg tx _
    · exact .inl rfl
    · split
      · exact .inl rfl
      · split
        · exact .inl rfl
        · exact queuePacketAuto_enqueuesOneFrame cfg server tx _
  · exact mcWorldQueueSpawnChunk_enqueuesOneFrame cfg tx _

theorem enqueue_enqueuesOneFrame (cfg : McConfig) (server : McServer) (tx : TxRing)
    (op : EnqueueOp) : EnqueuesOneFrame tx (enqueue cfg server tx op) := by
  have hplain : ∀ body, EnqueuesOneFrame tx (mcServerQueuePacket tx body) :=
    fun body => (mcServerQueuePacket_addsFrame tx body).enqueuesOneFrame
  have hauto := queuePacketAuto_enqueuesOneFrame cfg server tx
  have hbuilt : ∀ w, EnqueuesOneFrame tx (queueBuilt tx w (queuePacketAuto cfg server)) :=
    fun w => queueBuilt_enqueuesOneFrame hauto
  have hbuiltPlain : ∀ w, EnqueuesOneFrame tx (queueBuilt tx w mcServerQueuePacket) :=
    fun w => queueBuilt_enqueuesOneFrame hplain
  cases op with
  | packet body => exact hplain body
  | compressedPlain body => exact (queuePacketCompressedPlain_addsFrame tx body).enqueuesOneFrame
  | auto body => exact hauto body
  | statusResponse =>
    rw [enqueue, queueStatusResponse]
    exact hbuiltPlain _
  | pong payload =>
    rw [enqueue, queuePong]
    exact hbuiltPlain _
  | loginSuccess username =>
    rw [enqueue, queueLoginSuccess]
    exact hbuiltPlain _
  | joinGame =>
    rw [enqueue, queueJoinGame]
    exact hbuilt _
  | spawnPosition =>
    rw [enqueue, queueSpawnPosition]
    exact hbuilt _
  | timeValue timeOfDay =>
    rw [enqueue, queueTimeValue]
    exact hbuilt _
  | time =>
    rw [enqueue, queueTime, queueTimeValue]
    exact hbuilt _
  | health =>
    rw [enqueue, queueHealth]
    exact hbuilt _
  | abilities =>
    rw [enqueue, queueAbilities]
    exact hbuilt _
  | positionAt position =>
    rw [enqueue, queuePositionAt]
    exact hbuilt _
  | position =>
    rw [enqueue, queuePosition, queuePositionAt]
    exact hbuilt _
  | keepalive id =>
    rw [enqueue, queueKeepalive]
    exact hbuilt _
  | worldSpawnChunk index => exact mcWorldQueueSpawnChunk_enqueuesOneFrame cfg tx index
  | compressedSpawnChunk index =>
    exact mcWorldQueueCompressedSpawnChunk_enqueuesOneFrame cfg tx index
  | bootstrapChunk => exact queueBootstrapChunk_enqueuesOneFrame cfg server tx

/-- The client decodes all that was enqueued since its handshake was accepted. -/
theorem clientDecode_streamRun (cfg : McConfig) (hcfg : cfg.protocolCompressionEnable = true)
    (txCap : ℕ) (ops : List StreamOp) :
    (∃ frames, clientDecode (streamRun cfg (streamStart cfg txCap) ops).2.history = some frames ∧
      ∀ frame ∈ frames, frame.Known cfg) ∧
    (streamRun cfg (streamStart cfg txCap) ops).2.ring.items <:+
      (streamRun cfg (streamStart cfg txCap) ops).2.history ∧
    ∀ server tx op, EnqueuesOneFrame tx (enqueue cfg server tx op) := by
  refine ⟨?_, streamRun_suffix cfg txCap ops, enqueue_enqueuesOneFrame cfg⟩
  have hmode := streamRun_inMode hcfg txCap ops
  rw [StreamInMode] at hmode
  split_ifs at hmode
  · exact hmode.clientDecode
  · exact hmode.clientDecode cfg

/-- The host build with compression: a handshake for a login, the name "Bob", a tick. -/
def compressionConfig : McConfig where
  protocolCompressionEnable := true
  usePsramCompressedMap := false
  compressionThreshold := 8192
  keepaliveIntervalTicks := 720000000
  compressedAssets := []
  compressedTotalBytes := 0
  compressedArenaLen := 0
  psram_requires := fun h => absurd h Bool.false_ne_true
  threshold_pos := by decide
  interval_pos := by decide

/-- The framing of a frame and its packet id. -/
def ClientFrame.kind : ClientFrame → Bool × Option UInt8
  | .plain body => (false, body.head?)
  | .compressed _ data => (true, data.head?)

def loginOps : List StreamOp :=
  [.receive [7, 0, 47, 1, 0x61, 0x63, 0xdd], .receive [2, 5, 0, 3, 0x42, 0x6f, 0x62],
    .drain 40, .tickAt 1]

-- Set Compression is the plain frame. Login Success and the packets of the first tick follow it.
theorem clientDecode_streamRun_login :
    ∃ frames, clientDecode
        (streamRun compressionConfig (streamStart compressionConfig 49152) loginOps).2.history =
          some frames ∧
      frames.map ClientFrame.kind =
        [(false, some 3), (true, some 2), (true, some 1), (true, some 5), (true, some 3),
          (true, some 6), (true, some 0x39), (true, some 8)] ∧
      ∀ frame ∈ frames, frame.Known compressionConfig := by
  have hkinds : (clientDecode (streamRun compressionConfig (streamStart compressionConfig 49152)
      loginOps).2.history).map (List.map ClientFrame.kind) =
        some [(false, some 3), (true, some 2), (true, some 1), (true, some 5), (true, some 3),
          (true, some 6), (true, some 0x39), (true, some 8)] := by
    decide +kernel
  obtain ⟨frames, hframes, hknown⟩ :=
    (clientDecode_streamRun compressionConfig rfl 49152 loginOps).1
  rw [hframes] at hkinds
  exact ⟨frames, hframes, Option.some.inj hkinds, hknown⟩

end StarrySky.Core
