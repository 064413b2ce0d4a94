import StarrySky.Core.Commands
import StarrySky.Core.World

/-! The Minecraft server of `core/src/mc_server.c`. Trace events are left out. -/

namespace StarrySky.Core
open StarrySky.Base

abbrev mcMaxUsername : ℕ := 16
abbrev mcRxAccumSize : ℕ := mcMaxPacketBody + 8
abbrev mcMaxServerboundPacketId : Int32 := 0x7f

inductive McConnState
  | handshake
  | status
  | login
  | play
deriving DecidableEq, Repr

/-- `player` is `player_x` to `player_pitch`; `rxAccum` is the first `rx_accum_len` bytes of
the accumulator; `username` is the part of the array that the code has written. -/
structure McServer where
  state : McConnState
  compressionEnabled : Bool
  compressionThreshold : Int32
  username : List UInt8
  ticks : UInt32
  lastKeepaliveTick : UInt32
  keepaliveId : Int32
  keepalivePending : Bool
  player : McCommandPosition
  playerOnGround : Bool
  worldTime : Int32
  weather : McWeather
  playBootstrapSent : Bool
  rxAccum : List UInt8
  playBootstrapStage : ℕ
  playBootstrapChunkIndex : ℕ
  txResetRequested : Bool
deriving DecidableEq

def readVarintBody (body : List UInt8) (pos : ℕ) : Option (Int32 × ℕ) :=
  if pos ≥ body.length then none
  else (mcVarintDecode (body.drop pos)).map fun (value, used) => (value, pos + used)

def readStringBody (body : List UInt8) (pos dstCap : ℕ) : Option (List UInt8 × ℕ) :=
  match readVarintBody body pos with
  | none => none
  | some (len, pos) =>
    if len < 0 then none
    else if len.toNatClampNeg ≥ dstCap ∨ pos + len.toNatClampNeg > body.length then none
    else some ((body.drop pos).take len.toNatClampNeg, pos + len.toNatClampNeg)

def bytesHaveC0Control (bytes : List UInt8) : Bool := bytes.any (· < 0x20)

def readChatBody (body : List UInt8) (pos dstCap : ℕ) : Option (List UInt8 × ℕ) :=
  match readStringBody body pos dstCap with
  | none => none
  | some (text, pos) => if bytesHaveC0Control text then none else some (text, pos)

def readBoolBody (body : List UInt8) (pos : ℕ) : Option (Bool × ℕ) :=
  match body[pos]? with
  | none => none
  | some byte => some (byte ≠ 0, pos + 1)

def readU32Body (body : List UInt8) (pos : ℕ) : Option (UInt32 × ℕ) :=
  if pos > body.length ∨ body.length - pos < 4 then none
  else some (((body.drop pos).take 4).foldl (fun v byte => (v <<< 8) ||| byte.toUInt32) 0, pos + 4)

def readU64Body (body : List UInt8) (pos : ℕ) : Option (UInt64 × ℕ) :=
  if pos > body.length ∨ body.length - pos < 8 then none
  else some (((body.drop pos).take 8).foldl (fun v byte => (v <<< 8) ||| byte.toUInt64) 0, pos + 8)

def readF32Body (body : List UInt8) (pos : ℕ) : Option (Float32Bits × ℕ) := readU32Body body pos

def readF64Body (body : List UInt8) (pos : ℕ) : Option (Float64Bits × ℕ) := readU64Body body pos

def elapsedTicks (nowTicks thenTicks : UInt32) : UInt32 := nowTicks - thenTicks

def queuePacketAuto (cfg : McConfig) (server : McServer) (tx : TxRing) (body : List UInt8) :
    Bool × TxRing :=
  if cfg.protocolCompressionEnable ∧ server.compressionEnabled then
    queuePacketCompressedPlain tx body
  else mcServerQueuePacket tx body

def packetAutoFrameLen (cfg : McConfig) (server : McServer) (bodyLen : ℕ) : ℕ :=
  if cfg.protocolCompressionEnable ∧ server.compressionEnabled then
    mcPacketCompressedPlainFrameLen bodyLen
  else mcPacketFrameLen bodyLen

/-- The frames' total length; four frames are far from overflowing it. -/
def addPacketAutoFrameLens (cfg : McConfig) (server : McServer) (needed : ℕ) :
    List (List UInt8) → Option ℕ
  | [] => some needed
  | body :: packets =>
    let frameLen := packetAutoFrameLen cfg server body.length
    if frameLen = 0 then none
    else addPacketAutoFrameLens cfg server (needed + frameLen) packets

structure TxCheckpoint where
  len : ℕ
  historyLen : ℕ

def txCheckpointSave (tx : TxRing) : TxCheckpoint :=
  { len := tx.ring.len, historyLen := tx.history.length }

def txCheckpointRestore (tx : TxRing) (checkpoint : TxCheckpoint) : TxRing :=
  { ring := tx.ring.truncate checkpoint.len, history := tx.history.take checkpoint.historyLen }

/-- The second loop of `queue_packet_batch`. -/
def queuePackets (cfg : McConfig) (server : McServer) (checkpoint : TxCheckpoint) (tx : TxRing) :
    List (List UInt8) → Bool × TxRing
  | [] => (true, tx)
  | body :: packets =>
    let queued := queuePacketAuto cfg server tx body
    if !queued.1 then (false, txCheckpointRestore queued.2 checkpoint)
    else queuePackets cfg server checkpoint queued.2 packets

def queuePacketBatch (cfg : McConfig) (server : McServer) (tx : TxRing)
    (packets : List (List UInt8)) : Bool × TxRing :=
  match addPacketAutoFrameLens cfg server 0 packets with
  | none => (false, tx)
  | some needed =>
    if tx.free < needed then (false, tx)
    else queuePackets cfg server (txCheckpointSave tx) tx packets

/-- Queue a body, unless it did not fit into its buffer. -/
def queueBuilt (tx : TxRing) (body : Option McWriter)
    (queue : TxRing → List UInt8 → Bool × TxRing) : Bool × TxRing :=
  match body with
  | none => (false, tx)
  | some w => queue tx w.buf

def statusJson : List UInt8 :=
  cText ("\x7b\"version\":\x7b\"name\":\"1.8.x\",\"protocol\":47\x7d," ++
    "\"players\":\x7b\"max\":1,\"online\":0\x7d," ++
    "\"description\":\x7b\"text\":\"MC UART\"\x7d\x7d")

def statusResponseBody : Option McWriter := do
  let w ← (McWriter.init 512).writeVarint 0x00
  w.writeString statusJson

def queueStatusResponse (tx : TxRing) : Bool × TxRing :=
  queueBuilt tx statusResponseBody mcServerQueuePacket

def pongBody (payload : List UInt8) : Option McWriter := do
  let w ← (McWriter.init 16).writeVarint 0x01
  w.writeBytes payload

/-- `payload` is the 8 bytes at the pointer. -/
def queuePong (tx : TxRing) (payload : List UInt8) : Bool × TxRing :=
  queueBuilt tx (pongBody payload) mcServerQueuePacket

def buildLoginSuccessBody (bodyCap : ℕ) (username : List UInt8) : Option McWriter := do
  let w ← (McWriter.init bodyCap).writeVarint 0x02
  let w ← w.writeString (cText "00000000-0000-0000-0000-000000000001")
  w.writeString username

def queueLoginSuccess (tx : TxRing) (username : List UInt8) : Bool × TxRing :=
  queueBuilt tx (buildLoginSuccessBody 128 username) mcServerQueuePacket

def buildSetCompression (bodyCap : ℕ) (threshold : Int32) : Option McWriter := do
  let w ← (McWriter.init bodyCap).writeVarint 0x03
  w.writeVarint threshold

def joinGameBody : Option McWriter := do
  let w ← (McWriter.init 128).writeVarint 0x01
  let w ← w.writeI32 1
  let w ← w.writeU8 1
  let w ← w.writeI8 0
  let w ← w.writeU8 0
  let w ← w.writeU8 1
  let w ← w.writeString (cText "flat")
  w.writeBool false

def queueJoinGame (cfg : McConfig) (server : McServer) (tx : TxRing) : Bool × TxRing :=
  queueBuilt tx joinGameBody (queuePacketAuto cfg server)

def spawnPositionBody : Option McWriter := do
  let w ← (McWriter.init 32).writeVarint 0x05
  w.writeI64 0

def queueSpawnPosition (cfg : McConfig) (server : McServer) (tx : TxRing) : Bool × TxRing :=
  queueBuilt tx spawnPositionBody (queuePacketAuto cfg server)

def buildTimeBody (bodyCap : ℕ) (timeOfDay : Int32) : Option McWriter := do
  let w ← (McWriter.init bodyCap).writeVarint 0x03
  let w ← w.writeI64 0
  w.writeI64 timeOfDay.toInt64

def queueTimeValue (cfg : McConfig) (server : McServer) (tx : TxRing) (timeOfDay : Int32) :
    Bool × TxRing :=
  queueBuilt tx (buildTimeBody 32 timeOfDay) (queuePacketAuto cfg server)

def queueTime (cfg : McConfig) (server : McServer) (tx : TxRing) : Bool × TxRing :=
  queueTimeValue cfg server tx server.worldTime

/-- The values are 20.0, 20 and 5.0. -/
def healthBody : Option McWriter := do
  let w ← (McWriter.init 32).writeVarint 0x06
  let w ← w.writeF32 0x41a00000
  let w ← w.writeVarint 20
  w.writeF32 0x40a00000

def queueHealth (cfg : McConfig) (server : McServer) (tx : TxRing) : Bool × TxRing :=
  queueBuilt tx healthBody (queuePacketAuto cfg server)

/-- The speeds are 0.05 and 0.10. -/
def abilitiesBody : Option McWriter := do
  let w ← (McWriter.init 32).writeVarint 0x39
  let w ← w.writeU8 0x0f
  let w ← w.writeF32 0x3d4ccccd
  w.writeF32 0x3dcccccd

def queueAbilities (cfg : McConfig) (server : McServer) (tx : TxRing) : Bool × TxRing :=
  queueBuilt tx abilitiesBody (queuePacketAuto cfg server)

def buildPositionBody (bodyCap : ℕ) (position : McCommandPosition) : Option McWriter := do
  let w ← (McWriter.init bodyCap).writeVarint 0x08
  let w ← w.writeF64 position.x
  let w ← w.writeF64 position.y
  let w ← w.writeF64 position.z
  let w ← w.writeF32 position.yaw
  let w ← w.writeF32 position.pitch
  w.writeI8 0

def queuePositionAt (cfg : McConfig) (server : McServer) (tx : TxRing)
    (position : McCommandPosition) : Bool × TxRing :=
  queueBuilt tx (buildPositionBody 64 position) (queuePacketAuto cfg server)

def queuePosition (cfg : McConfig) (server : McServer) (tx : TxRing) : Bool × TxRing :=
  queuePositionAt cfg server tx server.player

def buildGameStateBody (bodyCap : ℕ) (reason : UInt8) (value : Float32Bits) : Option McWriter := do
  let w ← (McWriter.init bodyCap).writeVarint 0x2b
  let w ← w.writeU8 reason
  w.writeF32 value

/-- Reasons and values; the values are 0.0 and 1.0. -/
def weatherGameStateValues : McWeather → List (UInt8 × Float32Bits)
  | .clear => [(1, 0), (7, 0), (8, 0)]
  | .rain => [(2, 0), (7, 0x3f800000), (8, 0)]
  | .thunder => [(2, 0), (7, 0x3f800000), (8, 0x3f800000)]

def buildWeatherBodies (weather : McWeather) : Option (List McWriter) :=
  (weatherGameStateValues weather).mapM fun (reason, value) => buildGameStateBody 16 reason value

def keepaliveBody (keepaliveId : Int32) : Option McWriter := do
  let w ← (McWriter.init 16).writeVarint 0x00
  w.writeVarint keepaliveId

def queueKeepalive (cfg : McConfig) (server : McServer) (tx : TxRing) (keepaliveId : Int32) :
    Bool × TxRing :=
  queueBuilt tx (keepaliveBody keepaliveId) (queuePacketAuto cfg server)

/-- `dst` is the text so far, without its NUL. -/
def jsonAppendChar (dstCap : ℕ) (dst : List UInt8) (ch : UInt8) : Option (List UInt8) :=
  if dst.length + 1 ≥ dstCap then none else some (dst ++ [ch])

def jsonAppendCstr (dstCap : ℕ) (dst text : List UInt8) : Option (List UInt8) :=
  text.foldlM (jsonAppendChar dstCap) dst

def hexDigit (value : UInt8) : UInt8 :=
  let value := value &&& 0x0f
  if value < 10 then 0x30 + value else 0x41 + (value - 10)

def jsonEscapeChar (ch : UInt8) : List UInt8 :=
  if ch < 0x20 then [0x5c, 0x75, 0x30, 0x30, hexDigit (ch >>> 4), hexDigit ch]
  else if ch = 0x22 ∨ ch = 0x5c then [0x5c, ch]
  else [ch]

def jsonEscapeText (text : List UInt8) (dstCap : ℕ) : Option (List UInt8) :=
  if dstCap = 0 then none
  else text.foldlM (fun dst ch => (jsonEscapeChar ch).foldlM (jsonAppendChar dstCap) dst) []

def buildChatJson (escaped : List UInt8) (dstCap : ℕ) : Option (List UInt8) :=
  if dstCap = 0 then none
  else do
    let dst ← jsonAppendCstr dstCap [] (cText "\x7b\"text\":\"")
    let dst ← jsonAppendCstr dstCap dst escaped
    jsonAppendCstr dstCap dst (cText "\"\x7d")

def buildChatBody (bodyCap : ℕ) (text : List UInt8) : Option McWriter := do
  let escaped ← jsonEscapeText text (mcCommandTextCap * 6)
  let json ← buildChatJson escaped (mcCommandTextCap * 6 + 16)
  let w ← (McWriter.init bodyCap).writeVarint 0x02
  let w ← w.writeString json
  w.writeU8 0

def resetPlayRuntimeState (server : McServer) : McServer :=
  { server with
    lastKeepaliveTick := 0, keepaliveId := 0, keepalivePending := false
    player := mcCommandDefaultPosition, playerOnGround := false
    worldTime := mcCommandDefaultTime, weather := .clear }

def buildCommandContext (server : McServer) : McCommandContext :=
  { position := server.player, timeOfDay := server.worldTime, weather := server.weather }

/-- The bodies a result is sent as: those of its action and then the chat message. -/
def commandResultBodies (result : McCommandResult) : Option (List (List UInt8)) := do
  let chat ← buildChatBody (mcCommandTextCap * 6 + 32) result.chat
  match result.action with
  | .chat => return [chat.buf]
  | .teleport position => return [(← buildPositionBody 64 position).buf, chat.buf]
  | .time timeOfDay => return [(← buildTimeBody 64 timeOfDay).buf, chat.buf]
  | .weather weather => return (← buildWeatherBodies weather).map (·.buf) ++ [chat.buf]

/-- What a result changes in the server once it was queued. -/
def applyCommandResult (server : McServer) (result : McCommandResult) : McServer :=
  match result.action with
  | .chat => server
  | .teleport position => { server with player := position }
  | .time timeOfDay => { server with worldTime := timeOfDay }
  | .weather weather => { server with weather := weather }

def executeCommandResult (cfg : McConfig) (server : McServer) (tx : TxRing)
    (result : McCommandResult) : Bool × McServer × TxRing :=
  match commandResultBodies result with
  | none => (false, server, tx)
  | some packets =>
    let queued := queuePacketBatch cfg server tx packets
    if !queued.1 then (false, server, queued.2)
    else (true, applyCommandResult server result, queued.2)

/-- `queue_spawn_chunk_auto`, for builds with compression but without the PSRAM map. -/
def queueSpawnChunkAuto (cfg : McConfig) (server : McServer) (tx : TxRing) (index : ℕ) :
    Bool × TxRing :=
  if !server.compressionEnabled then mcWorldQueueSpawnChunk cfg tx index
  else if index ≥ mcWorldSpawnChunkCount then (false, tx)
  else
    match worldSpawnChunks[index]? with
    | none => (false, tx)
    | some (chunkX, chunkZ) =>
      match mcWorldBuildChunkBody cfg chunkX chunkZ (mcChunkSectionBytes + 32) with
      | none => (false, tx)
      | some body => queuePacketAuto cfg server tx body

def mcServerInit (cfg : McConfig) : McServer :=
  resetPlayRuntimeState
    { state := .handshake, compressionEnabled := false
      compressionThreshold := cfg.compressionThreshold.toInt32
      username := List.replicate (mcMaxUsername + 1) 0, ticks := 0, lastKeepaliveTick := 0
      keepaliveId := 0, keepalivePending := false, player := ⟨0, 0, 0, 0, 0⟩
      playerOnGround := false, worldTime := 0, weather := .clear, playBootstrapSent := false
      rxAccum := [], playBootstrapStage := 0, playBootstrapChunkIndex := 0
      txResetRequested := false }

def resetLogicalSession (cfg : McConfig) (server : McServer) : McServer :=
  resetPlayRuntimeState
    { server with
      username := List.replicate (mcMaxUsername + 1) 0, state := .handshake
      compressionEnabled := false, compressionThreshold := cfg.compressionThreshold.toInt32
      playBootstrapSent := false, playBootstrapStage := 0, playBootstrapChunkIndex := 0
      txResetRequested := true }

def nextKeepaliveId (server : McServer) : Int32 :=
  if server.keepaliveId ≥ Int32.maxValue then 1 else server.keepaliveId + 1

def tickKeepalive (cfg : McConfig) (server : McServer) (tx : TxRing) (nowTicks : UInt32) :
    Bool × McServer × TxRing :=
  if server.state ≠ .play ∨ !server.playBootstrapSent then (true, server, tx)
  else if server.lastKeepaliveTick ≠ 0 ∧
      elapsedTicks nowTicks server.lastKeepaliveTick < cfg.keepaliveIntervalTicks then
    (true, server, tx)
  else
    let keepaliveId := nextKeepaliveId server
    let queued := queueKeepalive cfg server tx keepaliveId
    if !queued.1 then (false, server, queued.2)
    else
      (true, { server with keepaliveId, keepalivePending := true, lastKeepaliveTick := nowTicks },
        queued.2)

inductive McHandshakeResult
  | noMatch
  | accepted
  | invalid
deriving DecidableEq

/-- The next state a handshake packet asks for; `none` when the packet is malformed. -/
def readHandshake (body : List UInt8) (pos : ℕ) : Option Int32 := do
  let (_, pos) ← readVarintBody body pos
  let (_, pos) ← readStringBody body pos 256
  if pos + 2 > body.length then none
  else
    let (nextState, pos) ← readVarintBody body (pos + 2)
    if pos ≠ body.length then none else some nextState

def tryHandleHandshake (cfg : McConfig) (server : McServer) (body : List UInt8) :
    McHandshakeResult × McServer :=
  match readVarintBody body 0 with
  | none => (.invalid, server)
  | some (packetId, pos) =>
    if packetId ≠ 0 then (.noMatch, server)
    else
      match readHandshake body pos with
      | none => (.invalid, server)
      | some nextState =>
        let server := resetLogicalSession cfg server
        if nextState = 1 then (.accepted, { server with state := .status })
        else if nextState = 2 then (.accepted, { server with state := .login })
        else (.invalid, server)

/-- Position, rotation and ground flag of a movement packet, starting from `player`. -/
def readMovement (packetId : Int32) (body : List UInt8) (pos : ℕ) (player : McCommandPosition) :
    Option (McCommandPosition × Bool × ℕ) :=
  if packetId = 0x03 then do
    let (onGround, pos) ← readBoolBody body pos
    return (player, onGround, pos)
  else if packetId = 0x04 then do
    let (x, pos) ← readF64Body body pos
    let (y, pos) ← readF64Body body pos
    let (z, pos) ← readF64Body body pos
    let (onGround, pos) ← readBoolBody body pos
    return ({ player with x, y, z }, onGround, pos)
  else if packetId = 0x05 then do
    let (yaw, pos) ← readF32Body body pos
    let (pitch, pos) ← readF32Body body pos
    let (onGround, pos) ← readBoolBody body pos
    return ({ player with yaw, pitch }, onGround, pos)
  else if packetId = 0x06 then do
    let (x, pos) ← readF64Body body pos
    let (y, pos) ← readF64Body body pos
    let (z, pos) ← readF64Body body pos
    let (yaw, pos) ← readF32Body body pos
    let (pitch, pos) ← readF32Body body pos
    let (onGround, pos) ← readBoolBody body pos
    return ({ x, y, z, yaw, pitch }, onGround, pos)
  else none

def handlePlayMovement (server : McServer) (packetId : Int32) (body : List UInt8) (pos : ℕ) :
    Bool × McServer :=
  match readMovement packetId body pos server.player with
  | none => (false, server)
  | some (player, onGround, pos) =>
    if pos ≠ body.length then (false, server)
    else (true, { server with player, playerOnGround := onGround })

/-- Set Compression in plain framing, then Login Success in the new framing. -/
def queueCompressedLogin (server : McServer) (tx : TxRing) (username : List UInt8) :
    Bool × McServer × TxRing :=
  match buildSetCompression 16 server.compressionThreshold, buildLoginSuccessBody 128 username with
  | some compression, some success =>
    let needed := mcPacketFrameLen compression.buf.length +
      mcPacketCompressedPlainFrameLen success.buf.length
    if needed = 0 ∨ tx.free < needed then (false, server, tx)
    else
      let queued := mcServerQueuePacket tx compression.buf
      if !queued.1 then (false, server, queued.2)
      else
        let server := { server with compressionEnabled := true }
        let queued := queuePacketCompressedPlain queued.2 success.buf
        (queued.1, server, queued.2)
  | _, _ => (false, server, tx)

def handleLoginStart (cfg : McConfig) (server : McServer) (body : List UInt8) (pos : ℕ)
    (tx : TxRing) : Bool × McServer × TxRing :=
  match readStringBody body pos (mcMaxUsername + 1) with
  | none => (false, server, tx)
  | some (text, _) =>
    let username := cString text
    if username = [] then (false, server, tx)
    else
      let queued :=
        if cfg.protocolCompressionEnable then queueCompressedLogin server tx username
        else
          let queued := queueLoginSuccess tx username
          (queued.1, server, queued.2)
      if !queued.1 then queued
      else (true, { queued.2.1 with username := text ++ [0], state := .play }, queued.2.2)

def handleKeepalive (server : McServer) (body : List UInt8) (pos : ℕ) : Bool × McServer :=
  match readVarintBody body pos with
  | none => (false, server)
  | some (_, pos) =>
    if pos ≠ body.length then (false, server)
    else (true, { server with keepalivePending := false })

def handleChat (cfg : McConfig) (server : McServer) (body : List UInt8) (pos : ℕ) (tx : TxRing) :
    Bool × McServer × TxRing :=
  match readChatBody body pos mcCommandTextCap with
  | none => (false, server, tx)
  | some (message, pos) =>
    if pos ≠ body.length then (false, server, tx)
    else
      match mcCommandsHandleChat (cString server.username) message
          (buildCommandContext server) with
      | none => (false, server, tx)
      | some result => executeCommandResult cfg server tx result

/-- `handle_packet` after its handshake checks. -/
def handlePacketByState (cfg : McConfig) (server : McServer) (packetId : Int32) (pos : ℕ)
    (body : List UInt8) (tx : TxRing) : Bool × McServer × TxRing :=
  if server.state = .status ∧ packetId = 0x00 then
    let queued := queueStatusResponse tx
    (queued.1, server, queued.2)
  else if server.state = .status ∧ packetId = 0x01 ∧ body.length ≥ pos + 8 then
    let queued := queuePong tx ((body.drop pos).take 8)
    (queued.1, server, queued.2)
  else if server.state = .login ∧ packetId = 0x00 then handleLoginStart cfg server body pos tx
  else if server.state = .play ∧ packetId = 0x00 then
    let handled := handleKeepalive server body pos
    (handled.1, handled.2, tx)
  else if server.state = .play ∧ packetId = 0x01 then handleChat cfg server body pos tx
  else if server.state = .play ∧
      (packetId = 0x03 ∨ packetId = 0x04 ∨ packetId = 0x05 ∨ packetId = 0x06) then
    let handled := handlePlayMovement server packetId body pos
    (handled.1, handled.2, tx)
  else (true, server, tx)

def handlePacket (cfg : McConfig) (server : McServer) (body : List UInt8) (tx : TxRing) :
    Bool × McServer × TxRing :=
  match readVarintBody body 0 with
  | none => (false, server, tx)
  | some (packetId, pos) =>
    if server.state = .handshake ∧ packetId = 0x00 then
      match tryHandleHandshake cfg server body with
      | (.accepted, server) => (true, server, tx.dropAll)
      | (_, server) => (false, server, tx)
    else if server.state ≠ .play ∧ packetId = 0x00 then
      match tryHandleHandshake cfg server body with
      | (.accepted, server) => (true, server, tx.dropAll)
      | (handshake, server) =>
        if handshake = .invalid ∧ server.state ≠ .status ∧ server.state ≠ .login then
          (false, server, tx)
        else handlePacketByState cfg server packetId pos body tx
    else handlePacketByState cfg server packetId pos body tx

inductive McFrameStatus
  | needMore
  | ready (frameLen : ℕ)
  | invalid
deriving DecidableEq

def classifyFrame (src : List UInt8) : McFrameStatus :=
  match (src.take 5).findIdx? (fun byte => byte &&& 0x80 = 0) with
  | some i =>
    match mcVarintDecode (src.take (i + 1)) with
    | none => .invalid
    | some (bodyLen, headerLen) =>
      if bodyLen < 0 ∨ bodyLen.toNatClampNeg > mcMaxPacketBody then .invalid
      else if src.length ≥ headerLen + bodyLen.toNatClampNeg then
        .ready (headerLen + bodyLen.toNatClampNeg)
      else .needMore
  | none => if src.length ≥ 5 then .invalid else .needMore

/-- The last check of `partial_frame_has_invalid_packet_id`, on what is there of a body. -/
def packetIdInvalid (body : List UInt8) : Bool :=
  match mcVarintDecode body with
  | none => body.length ≥ 5
  | some (packetId, _) => packetId < 0 ∨ packetId > mcMaxServerboundPacketId

def partialFrameHasInvalidPacketId (cfg : McConfig) (server : McServer) (rxAccum : List UInt8) :
    Bool :=
  match mcVarintDecode rxAccum with
  | none => false
  | some (bodyLen, headerLen) =>
    if bodyLen < 0 ∨ bodyLen.toNatClampNeg > mcMaxPacketBody then true
    else if rxAccum.length ≤ headerLen then false
    else
      let body := rxAccum.drop headerLen
      if cfg.protocolCompressionEnable ∧ server.compressionEnabled then
        match mcVarintDecode body with
        | none => body.length ≥ 5
        | some (dataLen, used) =>
          if dataLen ≠ 0 then true
          else if body.length ≤ used then false
          else packetIdInvalid (body.drop used)
      else packetIdInvalid body

/-- The body that is handled: behind the data length when compression is on. -/
def unwrapPacket (server : McServer) (packet : McPacket) : Option (List UInt8) :=
  if server.compressionEnabled then
    match mcPacketGetCompressedBody packet.body with
    | none => none
    | some (body, dataLen) => if dataLen ≠ 0 then none else some body
  else some packet.body

theorem used_pos_of_mcVarintDecodeLoop {result : UInt32} {i : ℕ} {src : List UInt8} {value : Int32}
    {used : ℕ} (h : mcVarintDecodeLoop result i src = some (value, used)) : i < used := by
  induction src generalizing result i with
  | nil => simp [mcVarintDecodeLoop] at h
  | cons byte src ih =>
    rw [mcVarintDecodeLoop] at h
    split_ifs at h
    · have hused := congrArg Prod.snd (Option.some.inj h)
      exact Nat.lt_of_lt_of_eq (Nat.lt_succ_self i) hused
    · exact lt_trans (Nat.lt_succ_self i) (ih h)

theorem frameLen_pos {src : List UInt8} {packet : McPacket} (h : mcPacketTryRead src = some packet) :
    src ≠ [] ∧ 0 < packet.frameLen := by
  rw [mcPacketTryRead] at h
  cases hdecode : mcVarintDecode src with
  | none => simp [hdecode] at h
  | some decoded =>
    obtain ⟨bodyLen, headerLen⟩ := decoded
    simp only [hdecode] at h
    split_ifs at h
    have hpos := used_pos_of_mcVarintDecodeLoop hdecode
    refine ⟨?_, ?_⟩
    · rintro rfl
      simp [mcVarintDecode, mcVarintDecodeLoop] at hdecode
    · rw [← Option.some.inj h]
      exact Nat.lt_of_lt_of_le hpos (Nat.le_add_right _ _)

/-- The loop of `mc_server_receive` on the bytes `rxAccum`, which nothing in it but this
loop touches. -/
def receiveLoop (cfg : McConfig) (server : McServer) (rxAccum : List UInt8) (tx : TxRing) :
    Bool × McServer × TxRing :=
  match classifyFrame rxAccum with
  | .needMore =>
    if partialFrameHasInvalidPacketId cfg server rxAccum then
      (false, { server with rxAccum := [] }, tx)
    else (true, { server with rxAccum := rxAccum }, tx)
  | .invalid => (false, { server with rxAccum := [] }, tx)
  | .ready _ =>
    match _h : mcPacketTryRead rxAccum with
    | none => (false, { server with rxAccum := [] }, tx)
    | some packet =>
      match unwrapPacket server packet with
      | none => (false, { server with rxAccum := [] }, tx)
      | some body =>
        let handled := handlePacket cfg server body tx
        if !handled.1 then (false, { handled.2.1 with rxAccum := [] }, handled.2.2)
        else receiveLoop cfg handled.2.1 (rxAccum.drop packet.frameLen) handled.2.2
termination_by rxAccum.length
decreasing_by
  obtain ⟨hne, hpos⟩ := frameLen_pos _h
  have hlength := List.length_pos_of_ne_nil hne
  rw [List.length_drop]
  omega

/-- The bytes go into the accumulator one by one, up to the first without room. -/
def accumulate (rxAccum : List UInt8) : List UInt8 → Option (List UInt8)
  | [] => some rxAccum
  | byte :: bytes =>
    if rxAccum.length = mcRxAccumSize then none else accumulate (rxAccum ++ [byte]) bytes

def mcServerReceive (cfg : McConfig) (server : McServer) (bytes : List UInt8) (tx : TxRing) :
    Bool × McServer × TxRing :=
  match accumulate server.rxAccum bytes with
  | none => (false, { server with rxAccum := [] }, tx)
  | some rxAccum => receiveLoop cfg server rxAccum tx

def mcServerTakeTxReset (server : McServer) : Bool × McServer :=
  (server.txResetRequested, { server with txResetRequested := false })

abbrev mcBootstrapJoinGame : ℕ := 0
abbrev mcBootstrapSpawnPosition : ℕ := 1
abbrev mcBootstrapTime : ℕ := 2
abbrev mcBootstrapHealth : ℕ := 3
abbrev mcBootstrapAbilities : ℕ := 4
abbrev mcBootstrapPosition : ℕ := 5
abbrev mcBootstrapChunks : ℕ := 6
abbrev mcBootstrapDone : ℕ := 7

/-- The chunk source of the build. -/
def queueBootstrapChunk (cfg : McConfig) (server : McServer) (tx : TxRing) : Bool × TxRing :=
  if cfg.protocolCompressionEnable ∧ cfg.usePsramCompressedMap then
    if server.compressionEnabled then
      mcWorldQueueCompressedSpawnChunk cfg tx server.playBootstrapChunkIndex
    else mcWorldQueueSpawnChunk cfg tx server.playBootstrapChunkIndex
  else if cfg.protocolCompressionEnable then
    queueSpawnChunkAuto cfg server tx server.playBootstrapChunkIndex
  else mcWorldQueueSpawnChunk cfg tx server.playBootstrapChunkIndex

def bootstrapChunkCount (cfg : McConfig) (server : McServer) : ℕ :=
  if cfg.usePsramCompressedMap ∧ server.compressionEnabled then mcWorldCompressedChunkCount cfg
  else mcWorldSpawnChunkCount

/-- The `switch` on the stage. -/
def queueBootstrapStage (cfg : McConfig) (server : McServer) (tx : TxRing) : Bool × TxRing :=
  if server.playBootstrapStage = mcBootstrapJoinGame then queueJoinGame cfg server tx
  else if server.playBootstrapStage = mcBootstrapSpawnPosition then
    queueSpawnPosition cfg server tx
  else if server.playBootstrapStage = mcBootstrapTime then queueTime cfg server tx
  else if server.playBootstrapStage = mcBootstrapHealth then queueHealth cfg server tx
  else if server.playBootstrapStage = mcBootstrapAbilities then queueAbilities cfg server tx
  else if server.playBootstrapStage = mcBootstrapPosition then queuePosition cfg server tx
  else if server.playBootstrapStage = mcBootstrapChunks then queueBootstrapChunk cfg server tx
  else (true, tx)

def countBootstrapChunk (server : McServer) : McServer :=
  if server.playBootstrapStage = mcBootstrapChunks then
    { server with playBootstrapChunkIndex := server.playBootstrapChunkIndex + 1 }
  else server

/-- The loop of `mc_server_tick_at`. Only the stage of the chunks is left before it is over,
and that stage ends the loop. -/
def tickBootstrap (cfg : McConfig) (server : McServer) (tx : TxRing) : Bool × McServer × TxRing :=
  if server.playBootstrapStage < mcBootstrapDone then
    let queued := queueBootstrapStage cfg server tx
    if !queued.1 then (false, server, queued.2)
    else
      let counted := countBootstrapChunk server
      if server.playBootstrapStage = mcBootstrapChunks ∧
          counted.playBootstrapChunkIndex < bootstrapChunkCount cfg server then
        (true, counted, queued.2)
      else
        let advanced := { counted with playBootstrapStage := server.playBootstrapStage + 1 }
        if advanced.playBootstrapStage = mcBootstrapChunks then (true, advanced, queued.2)
        else tickBootstrap cfg advanced queued.2
  else (true, server, tx)
termination_by mcBootstrapDone - server.playBootstrapStage

def mcServerTickAt (cfg : McConfig) (server : McServer) (tx : TxRing) (nowTicks : UInt32) :
    Bool × McServer × TxRing :=
  let server := { server with ticks := server.ticks + 1 }
  if server.state = .play ∧ !server.playBootstrapSent then
    let booted := tickBootstrap cfg server tx
    if !booted.1 then booted
    else
      let server :=
        if booted.2.1.playBootstrapStage ≥ mcBootstrapDone then
          { booted.2.1 with playBootstrapSent := true }
        else booted.2.1
      tickKeepalive cfg server booted.2.2 nowTicks
  else tickKeepalive cfg server tx nowTicks

end StarrySky.Core
