import StarrySky.Firmware.LinkSession

/-! The three pumps of `firmware/main.c` around the link session. The Minecraft
server is any implementation of the four functions `main.c` calls. -/

namespace StarrySky.Firmware
open StarrySky.Base StarrySky.Link

universe u
variable {σ : Type u}

abbrev mcRxRingCap : ℕ := 8192
abbrev mcTxRingCap : ℕ := 49152
abbrev mcTickBudgetRxBytes : ℕ := 512
abbrev mcLinkTxMaxBytesPerLoop : ℕ := 512
abbrev mcLinkTxPendingBytes : ℕ := 512

/-- The server's interface; receiving and ticking return what is in the transmit ring after. -/
structure McServerOps (σ : Type u) where
  init : σ
  receive : σ → List UInt8 → Ringbuf UInt8 → Bool × σ × Ringbuf UInt8
  tickAt : σ → Ringbuf UInt8 → UInt32 → Bool × σ × Ringbuf UInt8
  takeTxReset : σ → Bool × σ

/-- The static state of `main.c`; `rx_ring` is the session's receive ring, and
`linkPending` holds the first `link_pending_len` bytes of the buffer. -/
structure Main (σ : Type u) where
  session : LinkSession
  txRing : Ringbuf UInt8
  server : σ
  linkPending : List UInt8
  linkPendingPos : ℕ

def linkPendingIsDataM2c (m : Main σ) : Bool :=
  if m.linkPending.length = 0 ∨ m.linkPendingPos > 0 ∨
      m.linkPending.length > mcLinkTxPendingBytes then false
  else
    match mcLinkDecodeFrame m.linkPending with
    | some frame => frame.type = mcLinkDataM2c
    | none => false

def dropStaleLinkTxData (m : Main σ) : Main σ :=
  let m := { m with session := mcLinkSessionDropQueuedData m.session }
  if m.linkPendingPos = 0 ∧ m.session.activeTxQueue ≠ some .data ∧ linkPendingIsDataM2c m then
    { m with linkPending := [], linkPendingPos := 0 }
  else m

/-- `reset_connection_quiet`; `reset_connection` adds a log line. -/
def resetConnection (ops : McServerOps σ) (m : Main σ) : Main σ :=
  dropStaleLinkTxData { m with
    session := { m.session with rx := .init mcRxRingCap }
    txRing := .init mcTxRingCap
    server := ops.init }

/-- Feed the session; on failure the parser and the connection start afresh. -/
def receiveLink (ops : McServerOps σ) (m : Main σ) (buf : List UInt8) : Main σ :=
  let received := mcLinkSessionReceiveBytes m.session buf
  if received.1 then { m with session := received.2 }
  else resetConnection ops { m with session := { received.2 with parser := mcLinkParserInit } }

/-- The check for a link reset, made after the session was fed. -/
def takeLinkReset (ops : McServerOps σ) (m : Main σ) : Main σ :=
  let requested := mcLinkSessionTakeResetRequested m.session
  if requested.1 then resetConnection ops { m with session := requested.2 }
  else { m with session := requested.2 }

/-- One call with the bytes `platform_bridge_read` returned. -/
def pumpLinkRx (ops : McServerOps σ) (m : Main σ) (buf : List UInt8) : Main σ :=
  if buf = [] then m else takeLinkReset ops (receiveLink ops m buf)

/-- The check for a transmit reset, made after a receive and after a tick. -/
def pumpServerTxReset (ops : McServerOps σ) (m : Main σ) : Main σ :=
  let reset := ops.takeTxReset m.server
  let m := { m with server := reset.2 }
  if reset.1 then dropStaleLinkTxData m else m

def pumpServerTick (ops : McServerOps σ) (m : Main σ) (nowTicks : UInt32) : Main σ :=
  let ticked := ops.tickAt m.server m.txRing nowTicks
  pumpServerTxReset ops { m with server := ticked.2.1, txRing := ticked.2.2 }

/-- The bytes `pump_server` takes from the receive ring. -/
def takeRxBytes (m : Main σ) : List UInt8 × Main σ :=
  let taken := m.session.rx.read mcTickBudgetRxBytes
  (taken.1, { m with session := { m.session with rx := taken.2 } })

def serverReceive (ops : McServerOps σ) (m : Main σ) (bytes : List UInt8) : Bool × Main σ :=
  let received := ops.receive m.server bytes m.txRing
  (received.1, { m with server := received.2.1, txRing := received.2.2 })

def pumpServer (ops : McServerOps σ) (m : Main σ) (nowTicks : UInt32) : Main σ :=
  let taken := takeRxBytes m
  if taken.1 = [] then pumpServerTick ops taken.2 nowTicks
  else
    let received := serverReceive ops taken.2 taken.1
    let m := received.2
    if !received.1 then
      resetConnection ops { m with
        session := (mcLinkSessionResetAfterError m.session mcLinkErrProtocolState 0).2 }
    else
      let m := { m with session := mcLinkSessionCreditConsumed m.session taken.1.length }
      pumpServerTick ops (pumpServerTxReset ops m) nowTicks

/-- `platform_bridge_write` takes `accepted` bytes, or all of them. -/
def writePending (m : Main σ) (budget accepted : ℕ) : List UInt8 × Main σ :=
  let rest := m.linkPending.drop m.linkPendingPos
  let written := min accepted (min rest.length budget)
  (rest.take written, { m with linkPendingPos := m.linkPendingPos + written })

def clearLinkPending (m : Main σ) : Main σ := { m with linkPending := [], linkPendingPos := 0 }

/-- The second half of `pump_link_tx`: fetch a frame and start to write it. -/
def pumpLinkTxNext (m : Main σ) (budget accepted : ℕ) : List UInt8 × Main σ :=
  let queued := mcLinkSessionQueueServerTx m.session m.txRing
  let taken := mcLinkSessionReadTx queued.2.1 mcLinkTxPendingBytes
  let m := { m with session := taken.2, txRing := queued.2.2, linkPending := taken.1 }
  if m.linkPending.length > 0 then
    let written := writePending { m with linkPendingPos := 0 } budget accepted
    (written.1,
      if written.2.linkPendingPos ≥ written.2.linkPending.length then clearLinkPending written.2
      else written.2)
  else ([], m)

/-- One call, with the counts that the two writes accept; returns the bytes written. -/
def pumpLinkTx (m : Main σ) (accepted₁ accepted₂ : ℕ) : List UInt8 × Main σ :=
  if m.linkPendingPos < m.linkPending.length then
    let written := writePending m mcLinkTxMaxBytesPerLoop accepted₁
    let budget := mcLinkTxMaxBytesPerLoop - written.1.length
    if written.2.linkPendingPos < written.2.linkPending.length then written
    else if budget = 0 then (written.1, clearLinkPending written.2)
    else
      let next := pumpLinkTxNext (clearLinkPending written.2) budget accepted₂
      (written.1 ++ next.1, next.2)
  else pumpLinkTxNext m mcLinkTxMaxBytesPerLoop accepted₂

/-- The state when `main` enters its loop. -/
def mainBoot (ops : McServerOps σ) : Main σ :=
  resetConnection ops
    { session := mcLinkSessionInit (.init 0), txRing := .init 0, server := ops.init
      linkPending := [], linkPendingPos := 0 }

/-- One turn of the loop: the bytes read, the time, and the counts the writes accept. -/
structure LoopInput where
  buf : List UInt8
  buf_length_le : buf.length ≤ mcTickBudgetRxBytes
  nowTicks : UInt32
  accepted₁ : ℕ
  accepted₂ : ℕ

def mainLoop (ops : McServerOps σ) (m : Main σ) (input : LoopInput) : List UInt8 × Main σ :=
  pumpLinkTx (pumpServer ops (pumpLinkRx ops m input.buf) input.nowTicks)
    input.accepted₁ input.accepted₂

/-- The loop over a list of turns, and all bytes written. -/
def mainRun (ops : McServerOps σ) : Main σ → List LoopInput → List UInt8 × Main σ
  | m, [] => ([], m)
  | m, input :: inputs =>
    let next := mainLoop ops m input
    let rest := mainRun ops next.2 inputs
    (next.1 ++ rest.1, rest.2)

end StarrySky.Firmware
