import StarrySky.Core.TxReset

/-! One client of the Linux server: `run_client` of `linux/mc_linux_server.c` and what it calls,
over a kernel that answers each call as it likes. -/

namespace StarrySky.Linux
open StarrySky.Base StarrySky.Core

abbrev mcTxRingCap : ℕ := 49152
abbrev mcLinuxIoBuf : ℕ := 2048

/-- The build options that the file asks for; the arena is allocated with the assets' size. -/
structure LinuxConfig extends McConfig where
  serverTicksPerSecond : UInt64
  compression_enable : protocolCompressionEnable = true
  use_psram : usePsramCompressedMap = true
  arena_len : compressedArenaLen = compressedTotalBytes

inductive McLinuxClientReason
  | peerClose | recvError | sendError | protocolReceiveFailure | backpressureOrTickFailure
  | shutdown | txDrainWriteFailure | worldInitFailure
deriving DecidableEq, Repr

/-- `revents` of `poll`: `POLLNVAL`, the events asked for, `POLLERR | POLLHUP`. -/
inductive PollAnswer
  | revents (nval requested errOrHup : Bool)
  | timeout | interrupted | failed

/-- The errors are `EINTR`, `EAGAIN` or `EWOULDBLOCK`, and all others. -/
inductive SendAnswer
  | taken (count : ℕ)
  | interrupted | again | failed

inductive RecvAnswer
  | received (bytes : List UInt8)
  | interrupted | again | failed

/-- The answers to the calls and to the looks at `shutdown_requested`, which are counted
together. -/
structure Kernel where
  malloc : Bool
  poll : ℕ → PollAnswer
  send : ℕ → SendAnswer
  recv : ℕ → RecvAnswer
  clockGettime : ℕ → Option (UInt64 × UInt64)
  shutdownRequested : ℕ → Bool

/-- The variables of `run_client` and the count of calls; what the socket took since the reset
that was reported last, and before each of them. -/
structure LinuxClient where
  calls : ℕ
  server : McServer
  tx : TxRing
  taken : List UInt8
  earlier : List (List UInt8)

def LinuxClient.after (client : LinuxClient) (calls : ℕ) : LinuxClient := { client with calls }

/-- How a part of `run_client` ends; `running` when the steps it was given are used up. -/
inductive Turn
  | goesOn | running
  | stopped (reason : McLinuxClientReason)
deriving DecidableEq, Repr

def Turn.andThen (turn : Turn × LinuxClient) (next : LinuxClient → Turn × LinuxClient) :
    Turn × LinuxClient :=
  match turn.1 with
  | .goesOn => next turn.2
  | _ => turn

inductive Readiness
  | ready | timeout | failed
deriving DecidableEq, Repr

section
variable (kernel : Kernel)

def waitForFd : ℕ → ℕ → Option (Readiness × ℕ)
  | 0, _ => none
  | steps + 1, calls =>
    let again :=
      if kernel.shutdownRequested (calls + 1) then some (.failed, calls + 2)
      else waitForFd steps (calls + 2)
    match kernel.poll calls with
    | .revents nval requested errOrHup =>
      if nval then some (.failed, calls + 1)
      else if requested then some (.ready, calls + 1)
      else if errOrHup then some (.failed, calls + 1)
      else again
    | .timeout => some (.timeout, calls + 1)
    | .interrupted => again
    | .failed => some (.failed, calls + 1)

/-- The loop around `send`: the bytes taken, 0 for `EAGAIN`. -/
def sendLoop (out : List UInt8) : ℕ → ℕ → Option (Except McLinuxClientReason ℕ × ℕ)
  | 0, _ => none
  | steps + 1, calls =>
    match kernel.send calls with
    | .taken count =>
      if 0 < min count out.length then some (.ok (min count out.length), calls + 1)
      else some (.error .txDrainWriteFailure, calls + 1)
    | .interrupted => sendLoop out steps (calls + 1)
    | .again => some (.ok 0, calls + 1)
    | .failed => some (.error .sendError, calls + 1)

def drainTx : ℕ → LinuxClient → Turn × LinuxClient
  | 0, client => (.running, client)
  | steps + 1, client =>
    if client.tx.ring.len = 0 then (.goesOn, client)
    else if kernel.shutdownRequested client.calls then (.goesOn, client.after (client.calls + 1))
    else
      match waitForFd kernel steps (client.calls + 1) with
      | none => (.running, client)
      | some (.failed, calls) =>
        if kernel.shutdownRequested calls then (.stopped .shutdown, client.after (calls + 1))
        else (.stopped .txDrainWriteFailure, client.after (calls + 1))
      | some (.timeout, calls) => (.goesOn, client.after calls)
      | some (.ready, calls) =>
        let out := client.tx.ring.items.take mcLinuxIoBuf
        match sendLoop kernel out steps calls with
        | none => (.running, client)
        | some (.error reason, calls) => (.stopped reason, client.after calls)
        | some (.ok count, calls) =>
          drainTx steps
            { client with calls, tx := client.tx.drain count, taken := client.taken ++ out.take count }

def recvLoop : ℕ → ℕ → Option (RecvAnswer × ℕ)
  | 0, _ => none
  | steps + 1, calls =>
    match kernel.recv calls with
    | .interrupted => recvLoop steps (calls + 1)
    | answer => some (answer, calls + 1)

def monotonicTicks (ticksPerSecond : UInt64) : Option (UInt64 × UInt64) → UInt32
  | none => 0
  | some (sec, nsec) =>
    (sec * ticksPerSecond + nsec * ticksPerSecond / 1000000000).toUInt32

/-- The client's bytes go to the server, and the reset it reports is noted. -/
def takeReceived (cfg : McConfig) (steps : ℕ) (client : LinuxClient) (bytes : List UInt8) :
    Turn × LinuxClient :=
  let received := mcServerReceive cfg client.server bytes client.tx
  let next := { client with server := received.2.1, tx := received.2.2 }
  if !received.1 then (.stopped .protocolReceiveFailure, next)
  else
    let taken := mcServerTakeTxReset next.server
    let next := { next with server := taken.2 }
    drainTx kernel steps
      (if taken.1 then { next with taken := [], earlier := next.earlier ++ [next.taken] } else next)

def receiveTurn (cfg : McConfig) (steps : ℕ) (client : LinuxClient) : Turn × LinuxClient :=
  match waitForFd kernel steps client.calls with
  | none => (.running, client)
  | some (.failed, calls) =>
    if kernel.shutdownRequested calls then (.stopped .shutdown, client.after (calls + 1))
    else (.stopped .recvError, client.after (calls + 1))
  | some (.timeout, calls) => (.goesOn, client.after calls)
  | some (.ready, calls) =>
    match recvLoop kernel steps calls with
    | none => (.running, client)
    | some (.received bytes, calls) =>
      if bytes = [] then (.stopped .peerClose, client.after calls)
      else takeReceived kernel cfg steps (client.after calls) (bytes.take mcLinuxIoBuf)
    | some (.again, calls) => (.goesOn, client.after calls)
    | some (_, calls) => (.stopped .recvError, client.after calls)

def clientTurn (cfg : LinuxConfig) (steps : ℕ) (client : LinuxClient) : Turn × LinuxClient :=
  Turn.andThen (drainTx kernel steps client) fun client =>
    let nowTicks := monotonicTicks cfg.serverTicksPerSecond (kernel.clockGettime client.calls)
    let ticked := mcServerTickAt cfg.toMcConfig client.server client.tx nowTicks
    let client :=
      { client with calls := client.calls + 1, server := ticked.2.1, tx := ticked.2.2 }
    if !ticked.1 then drainTx kernel steps client
    else Turn.andThen (drainTx kernel steps client) (receiveTurn kernel cfg.toMcConfig steps)

def clientLoop (cfg : LinuxConfig) : ℕ → LinuxClient → Turn × LinuxClient
  | 0, client => (.running, client)
  | steps + 1, client =>
    if kernel.shutdownRequested client.calls then
      (.stopped .shutdown, client.after (client.calls + 1))
    else
      Turn.andThen (clientTurn kernel cfg steps (client.after (client.calls + 1)))
        (clientLoop cfg steps)

def clientStart (cfg : McConfig) : LinuxClient where
  calls := 0
  server := mcServerInit cfg
  tx := { ring := .init mcTxRingCap, history := [] }
  taken := []
  earlier := []

def runClient (cfg : LinuxConfig) (steps : ℕ) : Turn × LinuxClient :=
  if !kernel.malloc ∨ (mcWorldCompressedInit cfg.compressedAssets cfg.compressedTotalBytes
      cfg.compressedArenaLen).isNone then
    (.stopped .worldInitFailure, clientStart cfg.toMcConfig)
  else clientLoop kernel cfg steps (clientStart cfg.toMcConfig)

end

/-- What left the ring is on the socket, and what was before the last reset began a stream too. -/
structure Serving (cfg : LinuxConfig) (client : LinuxClient) : Prop where
  served : Served cfg.toMcConfig mcTxRingCap client.taken client.server client.tx
  earlier : ∀ part ∈ client.earlier, ClientPrefix cfg.toMcConfig part

variable {kernel : Kernel} {cfg : LinuxConfig} {client : LinuxClient}

theorem Serving.taken (h : Serving cfg client) : ClientPrefix cfg.toMcConfig client.taken :=
  h.served.clientPrefix cfg.compression_enable

theorem Serving.after (h : Serving cfg client) (calls : ℕ) : Serving cfg (client.after calls) :=
  ⟨h.served, h.earlier⟩

theorem sendLoop_le {out : List UInt8} {steps calls count calls' : ℕ}
    (h : sendLoop kernel out steps calls = some (.ok count, calls')) : count ≤ out.length := by
  induction steps generalizing calls with
  | zero => cases h
  | succ steps ih =>
    rw [sendLoop] at h
    split at h
    · split_ifs at h
      · cases h
        exact Nat.min_le_right _ _
      · cases h
    · exact ih h
    · cases h
      exact Nat.zero_le _
    · cases h

theorem Serving.sent (h : Serving cfg client) {count : ℕ}
    (hcount : count ≤ (client.tx.ring.items.take mcLinuxIoBuf).length) (calls : ℕ) :
    Serving cfg { client with
      calls, tx := client.tx.drain count
      taken := client.taken ++ (client.tx.ring.items.take mcLinuxIoBuf).take count } := by
  have htake : (client.tx.ring.items.take mcLinuxIoBuf).take count =
      client.tx.ring.items.take count := by
    rw [List.take_take, Nat.min_eq_left]
    exact hcount.trans (List.length_take_le _ _)
  rw [htake]
  exact ⟨h.served.drain count, h.earlier⟩

theorem serving_drainTx (h : Serving cfg client) (steps : ℕ) :
    Serving cfg (drainTx kernel steps client).2 := by
  induction steps generalizing client with
  | zero => exact h
  | succ steps ih =>
    rw [drainTx]
    split_ifs
    · exact h
    · exact h.after _
    · split
      · exact h
      · split_ifs
        · exact h.after _
        · exact h.after _
      · exact h.after _
      · dsimp only
        split
        · exact h
        · exact h.after _
        · rename_i hsend
          exact ih (h.sent (sendLoop_le hsend) _)

theorem Serving.tickAt (h : Serving cfg client) (nowTicks : UInt32) (calls : ℕ) :
    Serving cfg { client with
      calls
      server := (mcServerTickAt cfg.toMcConfig client.server client.tx nowTicks).2.1
      tx := (mcServerTickAt cfg.toMcConfig client.server client.tx nowTicks).2.2 } :=
  ⟨h.served.tickAt nowTicks, h.earlier⟩

/-- Where a part of the program leaves the client. A receive that fails may have emptied the ring;
nothing is sent after it. -/
def Serves (cfg : LinuxConfig) (turn : Turn × LinuxClient) : Prop :=
  Serving cfg turn.2 ∨ turn.1 = .stopped .protocolReceiveFailure ∧
    ∀ part ∈ turn.2.earlier ++ [turn.2.taken], ClientPrefix cfg.toMcConfig part

theorem Serves.andThen {turn : Turn × LinuxClient} {next : LinuxClient → Turn × LinuxClient}
    (h : Serves cfg turn) (hnext : ∀ client, Serving cfg client → Serves cfg (next client)) :
    Serves cfg (Turn.andThen turn next) := by
  obtain ⟨turn, client⟩ := turn
  rcases h with h | ⟨hstop, hparts⟩
  · cases turn with
    | goesOn => exact hnext client h
    | running => exact .inl h
    | stopped reason => exact .inl h
  · dsimp only at hstop
    subst hstop
    exact .inr ⟨rfl, hparts⟩

theorem serves_takeReceived (h : Serving cfg client) (steps : ℕ) (bytes : List UInt8) :
    Serves cfg (takeReceived kernel cfg.toMcConfig steps client bytes) := by
  rw [takeReceived]
  dsimp only
  have hparts : ∀ part ∈ client.earlier ++ [client.taken], ClientPrefix cfg.toMcConfig part := by
    intro part hmem
    rcases List.mem_append.mp hmem with hmem | hmem
    · exact h.earlier part hmem
    · rw [List.mem_singleton.mp hmem]
      exact h.taken
  have hserved := h.served.receive bytes
  generalize mcServerReceive cfg.toMcConfig client.server bytes client.tx = received
    at hserved ⊢
  obtain ⟨accepted, server, tx⟩ := received
  cases accepted with
  | false => exact .inr ⟨rfl, hparts⟩
  | true =>
    have hserved := hserved rfl
    dsimp only at hserved ⊢
    rw [if_neg (by decide)]
    left
    apply serving_drainTx
    by_cases hreset : (mcServerTakeTxReset server).1 = true
    · rw [if_pos hreset] at hserved ⊢
      exact ⟨hserved, hparts⟩
    · rw [if_neg hreset] at hserved ⊢
      exact ⟨hserved, h.earlier⟩

theorem serves_receiveTurn (h : Serving cfg client) (steps : ℕ) :
    Serves cfg (receiveTurn kernel cfg.toMcConfig steps client) := by
  rw [receiveTurn]
  split
  · exact .inl h
  · split_ifs
    · exact .inl (h.after _)
    · exact .inl (h.after _)
  · exact .inl (h.after _)
  · split
    · exact .inl h
    · split_ifs
      · exact .inl (h.after _)
      · exact serves_takeReceived (h.after _) steps _
    · exact .inl (h.after _)
    · exact .inl (h.after _)

theorem serves_clientTurn (h : Serving cfg client) (steps : ℕ) :
    Serves cfg (clientTurn kernel cfg steps client) := by
  rw [clientTurn]
  apply Serves.andThen (.inl (serving_drainTx h steps))
  intro client h
  have hticked := h.tickAt (monotonicTicks cfg.serverTicksPerSecond
    (kernel.clockGettime client.calls)) (client.calls + 1)
  dsimp only
  split_ifs
  · exact .inl (serving_drainTx hticked steps)
  · apply Serves.andThen (.inl (serving_drainTx hticked steps))
    exact fun client h => serves_receiveTurn h steps

theorem serves_clientLoop (h : Serving cfg client) (steps : ℕ) :
    Serves cfg (clientLoop kernel cfg steps client) := by
  induction steps generalizing client with
  | zero => exact .inl h
  | succ steps ih =>
    rw [clientLoop]
    split_ifs
    · exact .inl (h.after _)
    · exact (serves_clientTurn (h.after _) steps).andThen fun client h => ih h

theorem serving_clientStart (cfg : LinuxConfig) : Serving cfg (clientStart cfg.toMcConfig) :=
  ⟨served_start _ _, fun _ hmem => absurd hmem List.not_mem_nil⟩

/-- However the kernel answers, after any number of steps: what the socket took since the last
reset that the core reported, and what it took before each of them, begins a stream that a client
decodes into packets of the server. Unless a receive failed, the socket and the ring hold all that
was enqueued since the last reset. -/
theorem runClient_taken (kernel : Kernel) (cfg : LinuxConfig) (steps : ℕ) :
    let turn := runClient kernel cfg steps
    (∀ part ∈ turn.2.earlier ++ [turn.2.taken], ∃ stream frames, part <+: stream ∧
      clientDecode stream = some frames ∧ ∀ frame ∈ frames, frame.Known cfg.toMcConfig) ∧
    (turn.1 ≠ .stopped .protocolReceiveFailure →
      turn.2.taken ++ turn.2.tx.ring.items = turn.2.tx.history ∧
      ∃ frames, clientDecode turn.2.tx.history = some frames ∧
        ∀ frame ∈ frames, frame.Known cfg.toMcConfig) := by
  intro turn
  have hserves : Serves cfg turn := by
    show Serves cfg (runClient kernel cfg steps)
    rw [runClient]
    split_ifs
    · exact .inl (serving_clientStart cfg)
    · exact serves_clientLoop (serving_clientStart cfg) steps
  rcases hserves with h | ⟨hstop, hparts⟩
  · refine ⟨fun part hmem => ?_, fun _ => ⟨h.served.items, ?_⟩⟩
    rcases List.mem_append.mp hmem with hmem | hmem
    · exact h.earlier part hmem
    · rw [List.mem_singleton.mp hmem]
      exact h.taken
    · exact h.served.decoded cfg.compression_enable
  · exact ⟨hparts, fun hgoes => absurd hstop hgoes⟩

/-- Nine chunks of two bytes, and ticks of 72 MHz. -/
def linuxBuild : LinuxConfig where
  protocolCompressionEnable := true
  usePsramCompressedMap := true
  compressionThreshold := 8192
  keepaliveIntervalTicks := 720000000
  compressedAssets := worldSpawnChunks.map fun (x, z) => ⟨x, z, 12562, [0x78, 0xda]⟩
  compressedTotalBytes := 18
  compressedArenaLen := 18
  psram_requires := fun _ => rfl
  threshold_pos := compressionConfig.threshold_pos
  interval_pos := compressionConfig.interval_pos
  serverTicksPerSecond := 72000000
  compression_enable := rfl
  use_psram := rfl
  arena_len := rfl

/-- A kernel that hands over a handshake and a login, interrupts every other `send`, and takes
twenty bytes at a time. -/
def loginKernel : Kernel where
  malloc := true
  poll := fun _ => .revents false true false
  send := fun calls => if calls % 2 = 0 then .interrupted else .taken 20
  recv := fun calls =>
    if calls < 5 then .received [7, 0, 47, 1, 0x61, 0x63, 0xdd, 2]
    else if calls < 10 then .received [5, 0, 3, 0x42, 0x6f, 0x62] else .again
  clockGettime := fun _ => none
  shutdownRequested := fun _ => false

-- The steps end while the socket has a part of the login and the ring the rest.
theorem runClient_taken_login :
    let client := (runClient loginKernel linuxBuild 8).2
    client.earlier = [[]] ∧ client.taken.take 4 = [3, 3, 0x80, 0x40] ∧
      client.tx.ring.items ≠ [] ∧
      client.taken ++ client.tx.ring.items = client.tx.history ∧
      ∃ frames, clientDecode client.tx.history = some frames ∧
        ∀ frame ∈ frames, frame.Known linuxBuild.toMcConfig := by
  intro client
  have hrun : (runClient loginKernel linuxBuild 8).1 = .running := by decide +kernel
  have hfailed : (runClient loginKernel linuxBuild 8).1 ≠ .stopped .protocolReceiveFailure := by
    rw [hrun]
    nofun
  refine ⟨?_, ?_, ?_, (runClient_taken loginKernel linuxBuild 8).2 hfailed⟩
  · decide +kernel
  · decide +kernel
  · decide +kernel

end StarrySky.Linux
