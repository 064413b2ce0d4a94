import StarrySky.Bridge.RateProbe
import StarrySky.Bridge.Retransmit
import StarrySky.Bridge.SerialDrain

/-! The loop that serves one client, `run_link_client` in `bridge/src/session.rs`. -/

namespace StarrySky.Bridge
open StarrySky.Base

abbrev tcpPendingLimit : ℕ := 8192

/-- How a read from the socket ends, were the buffer large enough; no bytes mean its end. -/
inductive TcpRead
  | ok (bytes : List UInt8)
  | waits
  | error (error : IoError)

/-- A link reset: how the write of its frame ends, the reads made in time, the answers to the rate
probes, and how the start of a new worker ends. -/
structure ResetInput where
  written : Except IoError Unit
  reads : List (List UInt8)
  probe : RateProfile → UInt16 → Except IoError Bool
  spawned : Except IoError Unit

/-- A turn of the loop: what the worker has read by then, the calls the turn makes if it comes to
them, and the link reset if it makes one. -/
structure ClientTurn where
  arrivals : List SerialRxEvent
  tcpRead : TcpRead
  timeout : TimeoutCall
  write : List UInt8 → RateProfile → Except IoError Unit
  sentAt : ℕ
  reset : ResetInput

/-- The variables of `run_link_client`, with the worker's channel; the frames given to the serial
port are those since the link reset. As history, the reads since the sender was made, and the bytes
that had been acknowledged when the link was reset. -/
structure LinkLoop where
  client : LinkClient
  queue : List SerialRxEvent
  negotiatedPayload : ℕ
  supportedRateMask : UInt16
  tcpReadTotal : ℕ
  tcpToSerialTotal : ℕ
  tcpIn : List (List UInt8)
  ackedBefore : List UInt8

def resetLinkAndWaitReady (resetSeq : UInt16) (input : ResetInput) : Except IoError ReadyState :=
  match input.written with
  | .error error => .error error
  | .ok () => resetLinkAndWaitReadyWithSeq resetSeq input.reads

def LinkLoop.sendLinkReset (loop : LinkLoop) : LinkLoop :=
  { loop with client := loop.client.sendLinkReset }

/-- What the sender is when the link has been reset, with its history. -/
structure SenderReset where
  sender : ReadyState → C2mSender
  tcpIn : List (List UInt8)
  acked : List UInt8

/-- A link reset with a new worker, after which the sender is made from the `READY`. -/
def LinkLoop.resetWithRxWorker (loop : LinkLoop) (next : SenderReset) (input : ResetInput) :
    Except IoError Unit × LinkLoop :=
  let ready := resetLinkAndWaitReady loop.client.nextResetSeq input
  let loop := { loop with client := { loop.client with
    nextResetSeq := nextAfterResetSeq loop.client.nextResetSeq } }
  match ready with
  | .error error => (.error error, loop)
  | .ok ready =>
    let loop := { loop with
      client := { loop.client with credit := ready.initialCredit }
      negotiatedPayload := ready.negotiatedPayload
      supportedRateMask := ready.supportedRateMask }
    match calibrateRate input.probe ready.supportedRateMask with
    | .error error => (.error error, loop)
    | .ok rateController =>
      -- the sender is reset before the new worker is known to start
      let loop := { loop with
        client := { loop.client with
          c2mSender := next.sender ready, rateController, m2cSeqExpected := 0, serialOut := []
          acked := next.acked }
        tcpIn := next.tcpIn
        ackedBefore := next.acked }
      match input.spawned with
      | .error error => (.error error, loop)
      | .ok () =>
        (.ok (), { loop with client := { loop.client with decoder := .new }, queue := [] })

def resetLinkSessionStateWithRxWorker (loop : LinkLoop) (input : ResetInput) :
    Except IoError Unit × LinkLoop :=
  loop.resetWithRxWorker
    { sender := fun ready => .new ready.negotiatedPayload ready.initialCredit
      tcpIn := [], acked := [] } input

def resetLinkSessionStatePreservingPendingWithRxWorker (loop : LinkLoop) (input : ResetInput) :
    Except IoError Unit × LinkLoop :=
  loop.resetWithRxWorker
    { sender := fun ready => loop.client.c2mSender.resetLinkStatePreservingPending
        ready.negotiatedPayload ready.initialCredit
      tcpIn := loop.tcpIn, acked := loop.client.acked } input

/-- The read from the socket, when there is space; a result ends the loop. -/
def readTcp (loop : LinkLoop) (tcpRead : TcpRead) : Option (Except IoError Unit) × LinkLoop :=
  let pending := loop.client.c2mSender.pendingTcp.length
  if pending < tcpPendingLimit then
    match tcpRead with
    | .ok bytes =>
      let read := bytes.take (min (tcpPendingLimit - pending) ioBufLen)
      if read = [] then (some (.ok ()), loop.sendLinkReset)
      else
        (none,
          { loop with
            client := { loop.client with
              c2mSender := (loop.client.c2mSender.pushFilteredTcpBytes read).1 }
            tcpReadTotal := loop.tcpReadTotal + read.length
            tcpIn := loop.tcpIn ++ [read] })
    | .waits => (none, loop)
    | .error error => (some (.error error), loop.sendLinkReset)
  else (none, loop)

/-- The next data frame, when nothing is to be sent again. -/
def sendNext (loop : LinkLoop) (turn : ClientTurn) : Option (Except IoError Unit) × LinkLoop :=
  match loop.client.c2mSender.nextFrameToSend with
  | .ok (some frame) =>
    match encodeDataC2mFrame frame with
    | .error error => (some (.error error), loop)
    | .ok encoded =>
      match turn.write encoded loop.client.rateController.activeProfile with
      | .error error => (some (.error error), loop.sendLinkReset)
      | .ok () =>
        let client := { loop.client with serialOut := loop.client.serialOut ++ [encoded] }
        match client.c2mSender.markSent frame turn.sentAt with
        | .error error => (some (.error error), { loop with client })
        | .ok sender =>
          (none,
            { loop with
              client := { client with c2mSender := sender, credit := sender.credit }
              tcpToSerialTotal := loop.tcpToSerialTotal + frame.payload.length })
  | .ok none => (none, loop)
  | .error error =>
    if error.kind = .invalidData then
      match resetLinkSessionStatePreservingPendingWithRxWorker loop turn.reset with
      | (.error error, loop) => (some (.error error), loop)
      | (.ok (), loop) => (none, loop)
    else (some (.error error), loop)

/-- The retransmission, a reset after too many of them, or the next data frame. -/
def sendTurn (retransmitTimeout : ℕ) (loop : LinkLoop) (turn : ClientTurn) :
    Option (Except IoError Unit) × LinkLoop :=
  let sender := loop.client.c2mSender
  match handleRetransmitTimeout sender loop.client.rateController retransmitTimeout
      turn.timeout with
  | (action, c2mSender, rateController) =>
    let next := { loop with client := { loop.client with c2mSender, rateController } }
    match action with
    | .error error => (some (.error error), next.sendLinkReset)
    | .ok .reset =>
      match resetLinkSessionStatePreservingPendingWithRxWorker next turn.reset with
      | (.error error, loop) => (some (.error error), loop.sendLinkReset)
      | (.ok (), loop) => (none, loop)
    | .ok .retransmitted =>
      let encoded := (sender.retransmitIfDue turn.timeout.now retransmitTimeout).toList
      (none,
        { next with client := { next.client with serialOut := next.client.serialOut ++ encoded } })
    | .ok .none => sendNext next turn

section
variable (ports : ClientPorts) (retransmitTimeout : ℕ)

def clientTurn (loop : LinkLoop) (turn : ClientTurn) :
    Option (Except IoError Unit) × LinkLoop :=
  match drainSerialRxEvents ports loop.client (loop.queue ++ turn.arrivals) with
  | (drained, client, queue) =>
    let loop := { loop with client, queue }
    match drained with
    | .error error => (some (.error error), loop)
    | .ok .reset =>
      match resetLinkSessionStateWithRxWorker loop turn.reset with
      | (.error error, loop) => (some (.error error), loop)
      | (.ok (), loop) => (none, loop)
    | .ok .«continue» =>
      match readTcp loop turn.tcpRead with
      | (some ended, loop) => (some ended, loop)
      | (none, loop) => sendTurn retransmitTimeout loop turn

/-- The turns of the loop, up to the one that ends it. -/
def clientLoop (loop : LinkLoop) :
    List ClientTurn → Option (Except IoError Unit) × LinkLoop
  | [] => (none, loop)
  | turn :: turns =>
    match clientTurn ports retransmitTimeout loop turn with
    | (none, loop) => clientLoop loop turns
    | ended => ended

/-- The variables when the loop starts. -/
def LinkLoop.start (ready : ReadyState) (rateController : RateController) (nextResetSeq : UInt16) :
    LinkLoop where
  client :=
    { decoder := .new, c2mSender := .new ready.negotiatedPayload ready.initialCredit, rateController
      credit := ready.initialCredit, m2cSeqExpected := 0, serialToTcpTotal := 0, nextResetSeq
      tcpOut := [], serialOut := [], acked := [] }
  queue := []
  negotiatedPayload := ready.negotiatedPayload
  supportedRateMask := ready.supportedRateMask
  tcpReadTotal := 0
  tcpToSerialTotal := 0
  tcpIn := []
  ackedBefore := []

/-- A client, from its connection on; without a link there is no loop. -/
def runLinkClient (configured : Except IoError Unit) (resetSeq : UInt16) (reset : ResetInput)
    (turns : List ClientTurn) : Option (Except IoError Unit) × Option LinkLoop :=
  match configured with
  | .error error => (some (.error error), none)
  | .ok () =>
    match resetLinkAndWaitReady resetSeq reset with
    | .error error => (some (.error error), none)
    | .ok ready =>
      match calibrateRate reset.probe ready.supportedRateMask with
      | .error error => (some (.error error), none)
      | .ok rateController =>
        match reset.spawned with
        | .error error => (some (.error error), none)
        | .ok () =>
          let ended := clientLoop ports retransmitTimeout
            (.start ready rateController (nextAfterResetSeq resetSeq)) turns
          (ended.1, some ended.2)

end

end StarrySky.Bridge
