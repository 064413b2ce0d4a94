import StarrySky.Bridge.Handshake
import StarrySky.Bridge.Rate
import StarrySky.Bridge.ResetSeq
import StarrySky.Bridge.Session

/-! What the client loop does with the frames that come from the serial port,
`handle_serial_frame` to `drain_serial_rx_events` in `bridge/src/session.rs`. -/

namespace StarrySky.Bridge
open StarrySky.Link (mcLinkFrameBytes)

abbrev serialRxDrainMaxEvents : ℕ := 32
abbrev serialRxDrainMaxBytes : ℕ := 8192 * 4

inductive SerialDrain
  | «continue» | reset
deriving DecidableEq, Repr

inductive SerialRxEvent
  | bytes (bytes : List UInt8)
  | error (error : IoError)

/-- The variables of `run_link_client` that the drain reads or writes, the counter of the link
resets, the bytes the socket took and the frames given to the serial port. As history, the bytes
that acknowledgements took off the sender. -/
structure LinkClient where
  decoder : Link.Decoder
  c2mSender : C2mSender
  rateController : RateController
  credit : UInt16
  m2cSeqExpected : UInt16
  serialToTcpTotal : ℕ
  nextResetSeq : UInt16
  tcpOut : List UInt8
  serialOut : List (List UInt8)
  acked : List UInt8

/-- How a `write_all` to the socket and a `write_frame` to the serial port end, from what was
written before; a `write_all` that fails may have written a part. -/
structure ClientPorts where
  writeAll : List UInt8 → List UInt8 → Option (ℕ × IoError)
  writeFrame : List (List UInt8) → List UInt8 → Except IoError Unit

/-- The `Debug` text of a frame type. -/
def frameTypeDebug : Link.FrameType → String
  | .hello => "Hello"
  | .ready => "Ready"
  | .dataC2m => "DataC2m"
  | .ackC2m => "AckC2m"
  | .dataM2c => "DataM2c"
  | .rateProbe => "RateProbe"
  | .rateProbeAck => "RateProbeAck"
  | .reset => "Reset"
  | .resetAck => "ResetAck"
  | .error => "Error"
  | .ping => "Ping"
  | .pong => "Pong"
  | .unknown raw => "Unknown(" ++ toString raw ++ ")"

def encodeFrame (frameType : Link.FrameType) (seq : UInt16) (payload : List UInt8) :
    Except IoError (List UInt8) :=
  match Link.encode frameType seq 0 payload with
  | some encoded => .ok encoded
  | none => .error
      { kind := .invalidInput
        message := "failed to encode " ++ frameTypeDebug frameType ++ " frame" }

/-- `send_link_reset`, whose result the callers ignore. -/
def LinkClient.sendLinkReset (client : LinkClient) : LinkClient :=
  { client with
    nextResetSeq := nextAfterResetSeq client.nextResetSeq
    serialOut := client.serialOut ++ (Link.encode .reset client.nextResetSeq 0 []).toList }

def handleAckC2mWithRate (sender : C2mSender) (rateController : RateController)
    (frame : Link.Frame) : Except IoError (C2mSender × RateController) :=
  match handleAckC2m sender frame with
  | .error error => .error error
  | .ok acked =>
    .ok (acked,
      if sender.outstanding.isSome && acked.outstanding.isNone then rateController.recordSuccess
      else rateController)

/-- The bytes that an acknowledgement confirms: those of the frame under way, if it has the number
after it. -/
def C2mSender.ackedBytes (sender : C2mSender) (ack : UInt16) : List UInt8 :=
  match sender.outstanding with
  | none => []
  | some outstanding =>
    if ack = outstanding.seq + 1 then sender.pendingTcp.take outstanding.payloadLen else []

/-- The sender after an acknowledgement that fails. -/
def C2mSender.afterFailedAck (sender : C2mSender) (frame : Link.Frame) : C2mSender :=
  match Link.ackCredit frame.payload with
  | none => sender
  | some credit => { sender with credit }

section
variable (ports : ClientPorts)

def handleSerialFrame (client : LinkClient) (frame : Link.Frame) :
    Except IoError SerialDrain × LinkClient :=
  match frame.frameType with
  | .dataM2c =>
    match acceptM2cSequence frame client.m2cSeqExpected with
    | .error error => (.error error, client)
    | .ok expected =>
      let client := { client with m2cSeqExpected := expected }
      match ports.writeAll client.tcpOut frame.payload with
      | some (taken, error) =>
        (.error error,
          { client with tcpOut := client.tcpOut ++ frame.payload.take taken }.sendLinkReset)
      | none =>
        (.ok .«continue»,
          { client with
            tcpOut := client.tcpOut ++ frame.payload
            serialToTcpTotal := client.serialToTcpTotal + frame.payload.length })
  | .ackC2m =>
    match handleAckC2mWithRate client.c2mSender client.rateController frame with
    | .error error =>
      -- `handle_ack` has taken the credit over before it fails
      (.error error, { client with c2mSender := client.c2mSender.afterFailedAck frame })
    | .ok (sender, rateController) =>
      (.ok .«continue»,
        { client with
          c2mSender := sender, rateController := rateController, credit := sender.credit
          acked := client.acked ++ client.c2mSender.ackedBytes frame.ack })
  | .ready =>
    match (Link.parseReady frame.payload).bind normalizeReady with
    | some _ => (.ok .reset, client)
    | none => (.ok .«continue», client)
  | .error => (.ok .reset, client)
  | .ping =>
    match encodeFrame .pong frame.seq frame.payload with
    | .error error => (.error error, client)
    | .ok pong =>
      let written := ports.writeFrame client.serialOut pong
      let client := { client with serialOut := client.serialOut ++ [pong] }
      match written with
      | .error error => (.error error, client)
      | .ok () => (.ok .«continue», client)
  -- a reset acknowledgement, an unknown type and the bridge's own types are only logged
  | _ => (.ok .«continue», client)

/-- The loop of `handle_serial_rx_bytes` over the events of one read. -/
def handleDecodeEvents (client : LinkClient) :
    List Link.DecodeEvent → Except IoError SerialDrain × LinkClient
  | [] => (.ok .«continue», client)
  | event :: events =>
    match serialFrame event with
    | .error error => (.error error, client)
    | .ok frame =>
      match handleSerialFrame ports client frame with
      | (.ok .«continue», client) => handleDecodeEvents client events
      | stopped => stopped

def handleSerialRxBytes (client : LinkClient) (bytes : List UInt8) :
    Except IoError SerialDrain × LinkClient :=
  let fed := client.decoder.feed bytes
  handleDecodeEvents ports { client with decoder := fed.1 } fed.2

/-- The loop of `drain_serial_rx_events` over the events that its `try_recv` calls find; returns
those it leaves in the channel. -/
def drainLoop (eventsProcessed bytesProcessed : ℕ) (client : LinkClient) :
    List SerialRxEvent → Except IoError SerialDrain × LinkClient × List SerialRxEvent
  | [] => (.ok .«continue», client, [])
  | .error error :: events => (.error error, client, events)
  | .bytes bytes :: events =>
    match handleSerialRxBytes ports client bytes with
    | (.ok .«continue», client) =>
      if eventsProcessed + 1 ≥ serialRxDrainMaxEvents ∨
          bytesProcessed + bytes.length ≥ serialRxDrainMaxBytes then
        (.ok .«continue», client, events)
      else drainLoop (eventsProcessed + 1) (bytesProcessed + bytes.length) client events
    | (stopped, client) => (stopped, client, events)

def drainSerialRxEvents (client : LinkClient) (events : List SerialRxEvent) :
    Except IoError SerialDrain × LinkClient × List SerialRxEvent :=
  drainLoop ports 0 0 client events

/-- The calls of a client loop, each with the reads that arrive before it, up to the first that
does not go on. -/
def drainRounds (client : LinkClient) (queue : List SerialRxEvent) :
    List (List (List UInt8)) → Except IoError SerialDrain × LinkClient × List SerialRxEvent
  | [] => (.ok .«continue», client, queue)
  | arrivals :: rounds =>
    match drainSerialRxEvents ports client (queue ++ arrivals.map .bytes) with
    | (.ok .«continue», client, queue) => drainRounds client queue rounds
    | stopped => stopped

end

def LinkClient.withDecoder (client : LinkClient) (decoder : Link.Decoder) : LinkClient :=
  { client with decoder := decoder }

theorem feed_append (decoder : Link.Decoder) (a b : List UInt8) :
    decoder.feed (a ++ b) =
      (((decoder.feed a).1.feed b).1, (decoder.feed a).2 ++ ((decoder.feed a).1.feed b).2) := by
  induction a generalizing decoder with
  | nil => rfl
  | cons byte a ih =>
    rw [List.cons_append, Link.Decoder.feed, Link.Decoder.feed]
    obtain ⟨next, event⟩ := decoder.feedByte byte
    dsimp only
    rw [ih, List.append_assoc]

variable {ports : ClientPorts}

theorem handleSerialFrame_withDecoder (client : LinkClient) (decoder : Link.Decoder)
    (frame : Link.Frame) :
    handleSerialFrame ports (client.withDecoder decoder) frame =
      ((handleSerialFrame ports client frame).1,
        (handleSerialFrame ports client frame).2.withDecoder decoder) := by
  obtain ⟨frameType, flags, seq, ack, payload⟩ := frame
  cases frameType with
  | dataM2c =>
    simp only [handleSerialFrame, LinkClient.withDecoder]
    cases acceptM2cSequence _ client.m2cSeqExpected with
    | error error => rfl
    | ok expected =>
      dsimp only
      cases ports.writeAll client.tcpOut payload with
      | none => rfl
      | some failed => rfl
  | ackC2m =>
    simp only [handleSerialFrame, LinkClient.withDecoder]
    cases handleAckC2mWithRate client.c2mSender client.rateController _ with
    | error error => rfl
    | ok acked => rfl
  | ready =>
    simp only [handleSerialFrame, LinkClient.withDecoder]
    cases (Link.parseReady payload).bind normalizeReady with
    | none => rfl
    | some ready => rfl
  | ping =>
    simp only [handleSerialFrame, LinkClient.withDecoder]
    cases encodeFrame .pong seq payload with
    | error error => rfl
    | ok pong =>
      dsimp only
      cases ports.writeFrame client.serialOut pong with
      | error error => rfl
      | ok _ => rfl
  | _ => rfl

theorem handleDecodeEvents_withDecoder (client : LinkClient) (decoder : Link.Decoder)
    (events : List Link.DecodeEvent) :
    handleDecodeEvents ports (client.withDecoder decoder) events =
      ((handleDecodeEvents ports client events).1,
        (handleDecodeEvents ports client events).2.withDecoder decoder) := by
  induction events generalizing client with
  | nil => rfl
  | cons event events ih =>
    rw [handleDecodeEvents, handleDecodeEvents]
    cases serialFrame event with
    | error error => rfl
    | ok frame =>
      dsimp only
      rw [handleSerialFrame_withDecoder]
      obtain ⟨_ | (_ | _), next⟩ := handleSerialFrame ports client frame
      · rfl
      · exact ih next
      · rfl

theorem handleDecodeEvents_append {client next : LinkClient} {events : List Link.DecodeEvent}
    (h : handleDecodeEvents ports client events = (.ok .«continue», next))
    (later : List Link.DecodeEvent) :
    handleDecodeEvents ports client (events ++ later) = handleDecodeEvents ports next later := by
  -- Events that all go on leave the client to the later ones.
  induction events generalizing client with
  | nil =>
    cases h
    rfl
  | cons event events ih =>
    rw [handleDecodeEvents] at h
    rw [List.cons_append, handleDecodeEvents]
    cases hevent : serialFrame event with
    | error error =>
      rw [hevent] at h
      cases h
    | ok frame =>
      rw [hevent] at h
      dsimp only at h ⊢
      rcases hframe : handleSerialFrame ports client frame with ⟨_ | (_ | _), first⟩
      · rw [hframe] at h
        cases h
      · rw [hframe] at h
        exact ih h
      · rw [hframe] at h
        cases h

theorem handleDecodeEvents_append_of_stop {client : LinkClient} {events : List Link.DecodeEvent}
    (h : (handleDecodeEvents ports client events).1 ≠ .ok .«continue»)
    (later : List Link.DecodeEvent) :
    handleDecodeEvents ports client (events ++ later) =
      handleDecodeEvents ports client events := by
  induction events generalizing client with
  | nil => exact absurd rfl h
  | cons event events ih =>
    rw [handleDecodeEvents] at h
    rw [List.cons_append, handleDecodeEvents, handleDecodeEvents]
    cases hevent : serialFrame event with
    | error error => rfl
    | ok frame =>
      rw [hevent] at h
      dsimp only at h ⊢
      rcases hframe : handleSerialFrame ports client frame with ⟨_ | (_ | _), first⟩
      · rfl
      · rw [hframe] at h
        exact ih h
      · rfl

theorem handleSerialRxBytes_eq (client : LinkClient) (bytes : List UInt8) :
    handleSerialRxBytes ports client bytes =
      ((handleDecodeEvents ports client (client.decoder.feed bytes).2).1,
        (handleDecodeEvents ports client (client.decoder.feed bytes).2).2.withDecoder
          (client.decoder.feed bytes).1) :=
  handleDecodeEvents_withDecoder client _ _

theorem handleSerialRxBytes_append {client next : LinkClient} {a : List UInt8}
    (h : handleSerialRxBytes ports client a = (.ok .«continue», next)) (b : List UInt8) :
    handleSerialRxBytes ports client (a ++ b) = handleSerialRxBytes ports next b := by
  rw [handleSerialRxBytes_eq] at h
  rcases hevents : handleDecodeEvents ports client (client.decoder.feed a).2 with ⟨result, last⟩
  rw [hevents] at h
  cases h
  rw [handleSerialRxBytes_eq, handleSerialRxBytes_eq, feed_append]
  dsimp only
  rw [handleDecodeEvents_append hevents, handleDecodeEvents_withDecoder]
  rfl

theorem handleSerialRxBytes_append_of_stop {client : LinkClient} {a : List UInt8}
    (h : (handleSerialRxBytes ports client a).1 ≠ .ok .«continue») (b : List UInt8) :
    handleSerialRxBytes ports client (a ++ b) =
      ((handleSerialRxBytes ports client a).1,
        (handleSerialRxBytes ports client a).2.withDecoder (client.decoder.feed (a ++ b)).1) := by
  rw [handleSerialRxBytes_eq] at h
  rw [handleSerialRxBytes_eq, handleSerialRxBytes_eq, feed_append]
  dsimp only at h ⊢
  rw [handleDecodeEvents_append_of_stop h]
  rfl

/-- A drain of reads handles the bytes of those it takes, one after the other. It takes at least
one, and it leaves one only at a limit or when the client stops. -/
theorem drainLoop_bytes {eventsProcessed : ℕ} (hevents : eventsProcessed < serialRxDrainMaxEvents)
    (bytesProcessed : ℕ) (client : LinkClient) (reads : List (List UInt8)) :
    ∃ taken left, reads = taken ++ left ∧
      drainLoop ports eventsProcessed bytesProcessed client (reads.map .bytes) =
        ((handleSerialRxBytes ports client taken.flatten).1,
          (handleSerialRxBytes ports client taken.flatten).2, left.map .bytes) ∧
      (reads ≠ [] → taken ≠ []) ∧ eventsProcessed + taken.length ≤ serialRxDrainMaxEvents ∧
      ((handleSerialRxBytes ports client taken.flatten).1 = .ok .«continue» → left = [] ∨
        eventsProcessed + taken.length = serialRxDrainMaxEvents ∨
        serialRxDrainMaxBytes ≤ bytesProcessed + taken.flatten.length) := by
  induction reads generalizing eventsProcessed bytesProcessed client with
  | nil => exact ⟨[], [], rfl, rfl, id, hevents.le, fun _ => .inl rfl⟩
  | cons bytes reads ih =>
    have hone : ∀ result next, handleSerialRxBytes ports client bytes = (result, next) →
        handleSerialRxBytes ports client [bytes].flatten = (result, next) := by
      intro result next hread
      rwa [List.flatten_singleton]
    rw [List.map_cons, drainLoop]
    rcases hread : handleSerialRxBytes ports client bytes with ⟨_ | (_ | _), next⟩
    · refine ⟨[bytes], reads, rfl, ?_, fun _ => List.cons_ne_nil _ _, hevents, ?_⟩
      · rw [hone _ _ hread]
      · rw [hone _ _ hread]
        intro h
        cases h
    · dsimp only
      split_ifs with hlimit
      · refine ⟨[bytes], reads, rfl, ?_, fun _ => List.cons_ne_nil _ _, hevents, fun _ => .inr ?_⟩
        · rw [hone _ _ hread]
        · rw [List.flatten_singleton]
          exact hlimit.imp (fun h => le_antisymm hevents h) id
      · rw [not_or, Nat.not_le] at hlimit
        obtain ⟨taken, left, hreads, hdrain, _, hcount, hleft⟩ :=
          ih hlimit.1 (bytesProcessed + bytes.length) next
        refine ⟨bytes :: taken, left, congrArg _ hreads, ?_, fun _ => List.cons_ne_nil _ _, ?_, ?_⟩
        · rw [List.flatten_cons, handleSerialRxBytes_append hread, hdrain]
        · rw [List.length_cons]
          omega
        · rw [List.flatten_cons, handleSerialRxBytes_append hread, List.length_cons,
            List.length_append, Nat.add_comm taken.length 1, ← Nat.add_assoc, ← Nat.add_assoc]
          exact hleft
    · refine ⟨[bytes], reads, rfl, ?_, fun _ => List.cons_ne_nil _ _, hevents, ?_⟩
      · rw [hone _ _ hread]
      · rw [hone _ _ hread]
        intro h
        cases h

/-- Calls with any reads between them handle the bytes of the reads they take. -/
theorem drainRounds_bytes (client : LinkClient) (queue : List (List UInt8))
    (rounds : List (List (List UInt8))) :
    ∃ taken left, queue ++ rounds.flatten = taken ++ left ∧
      (drainRounds ports client (queue.map .bytes) rounds).1 =
        (handleSerialRxBytes ports client taken.flatten).1 ∧
      (drainRounds ports client (queue.map .bytes) rounds).2.1 =
        (handleSerialRxBytes ports client taken.flatten).2 ∧
      ((drainRounds ports client (queue.map .bytes) rounds).1 = .ok .«continue» →
        (drainRounds ports client (queue.map .bytes) rounds).2.2 = left.map .bytes) := by
  induction rounds generalizing client queue with
  | nil => exact ⟨[], queue, List.append_nil _, rfl, rfl, fun _ => rfl⟩
  | cons arrivals rounds ih =>
    obtain ⟨taken, left, hreads, hdrain, _⟩ :=
      @drainLoop_bytes ports 0 (by decide) 0 client (queue ++ arrivals)
    rw [drainRounds, ← List.map_append, drainSerialRxEvents, hdrain, List.flatten_cons,
      ← List.append_assoc, hreads]
    rcases htaken : handleSerialRxBytes ports client taken.flatten with ⟨_ | (_ | _), next⟩
    · refine ⟨taken, left ++ rounds.flatten, List.append_assoc _ _ _, ?_, ?_, ?_⟩
      · rw [htaken]
      · rw [htaken]
      · intro h
        cases h
    · obtain ⟨taken', left', hreads', hresult, hclient, hqueue⟩ := ih next left
      refine ⟨taken ++ taken', left', ?_, ?_, ?_, hqueue⟩
      · rw [List.append_assoc, hreads', List.append_assoc]
      · rw [List.flatten_append, handleSerialRxBytes_append htaken]
        exact hresult
      · rw [List.flatten_append, handleSerialRxBytes_append htaken]
        exact hclient
    · refine ⟨taken, left ++ rounds.flatten, List.append_assoc _ _ _, ?_, ?_, ?_⟩
      · rw [htaken]
      · rw [htaken]
      · intro h
        cases h

/-- However the worker cuts the bytes into reads and whenever the client drains them, up to the
limits of a call: a client that stops does so as if it had been given all bytes at once, and one
that goes on is where the bytes it took bring it. -/
theorem drainRounds_anyReads (client : LinkClient) (rounds : List (List (List UInt8))) :
    let drained := drainRounds ports client [] rounds
    let whole := handleSerialRxBytes ports client rounds.flatten.flatten
    (drained.1 ≠ .ok .«continue» → drained.1 = whole.1 ∧
      ∀ decoder, drained.2.1.withDecoder decoder = whole.2.withDecoder decoder) ∧
    (drained.1 = .ok .«continue» → ∃ taken left, rounds.flatten = taken ++ left ∧
      drained.2.2 = left.map .bytes ∧
      handleSerialRxBytes ports client taken.flatten = (.ok .«continue», drained.2.1)) := by
  intro drained whole
  obtain ⟨taken, left, hreads, hresult, hclient, hqueue⟩ :=
    @drainRounds_bytes ports client [] rounds
  rw [List.nil_append] at hreads
  refine ⟨fun hstop => ?_, fun hgoes => ?_⟩
  · have hwhole := handleSerialRxBytes_append_of_stop (a := taken.flatten)
      (by rwa [← hresult]) left.flatten
    rw [← List.flatten_append, ← hreads] at hwhole
    refine ⟨?_, fun decoder => ?_⟩
    · exact hresult.trans (congrArg Prod.fst hwhole).symm
    · show drained.2.1.withDecoder decoder = (handleSerialRxBytes _ _ _).2.withDecoder decoder
      rw [hwhole]
      have hsame := congrArg (fun c : LinkClient => c.withDecoder decoder) hclient
      exact hsame
  · exact ⟨taken, left, hreads, hqueue hgoes,
      Prod.ext (hresult.symm.trans hgoes) hclient.symm⟩

/-- What an event brings to the socket. -/
def tcpPayload : Link.DecodeEvent → List UInt8
  | .frame frame => if frame.frameType = .dataM2c then frame.payload else []
  | .error _ => []

theorem tcpOut_handleSerialFrame (client : LinkClient) (frame : Link.Frame) :
    client.tcpOut <+: (handleSerialFrame ports client frame).2.tcpOut ∧
    (handleSerialFrame ports client frame).2.tcpOut <+:
      client.tcpOut ++ tcpPayload (.frame frame) ∧
    ((handleSerialFrame ports client frame).1 = .ok .«continue» →
      (handleSerialFrame ports client frame).2.tcpOut =
        client.tcpOut ++ tcpPayload (.frame frame)) := by
  obtain ⟨frameType, flags, seq, ack, payload⟩ := frame
  have hkeeps : ∀ next : LinkClient, next.tcpOut = client.tcpOut →
      client.tcpOut <+: next.tcpOut ∧ next.tcpOut <+: client.tcpOut ++ [] ∧
        next.tcpOut = client.tcpOut ++ [] := by
    intro next hsame
    rw [hsame, List.append_nil]
    exact ⟨List.prefix_rfl, List.prefix_rfl, rfl⟩
  cases frameType with
  | dataM2c =>
    simp only [handleSerialFrame, tcpPayload, if_true]
    cases acceptM2cSequence _ client.m2cSeqExpected with
    | error error => exact ⟨List.prefix_rfl, List.prefix_append _ _, fun h => by cases h⟩
    | ok expected =>
      dsimp only
      cases ports.writeAll client.tcpOut payload with
      | none => exact ⟨List.prefix_append _ _, List.prefix_rfl, fun _ => rfl⟩
      | some failed =>
        refine ⟨List.prefix_append _ _, ?_, fun h => by cases h⟩
        exact (List.prefix_append_right_inj _).mpr (List.take_prefix _ _)
  | ackC2m =>
    simp only [handleSerialFrame, tcpPayload]
    cases handleAckC2mWithRate client.c2mSender client.rateController _ with
    | error error => exact (hkeeps client rfl).imp_right fun h => ⟨h.1, fun _ => h.2⟩
    | ok acked => exact (hkeeps _ rfl).imp_right fun h => ⟨h.1, fun _ => h.2⟩
  | ready =>
    simp only [handleSerialFrame, tcpPayload]
    cases (Link.parseReady payload).bind normalizeReady with
    | none => exact (hkeeps client rfl).imp_right fun h => ⟨h.1, fun _ => h.2⟩
    | some ready => exact (hkeeps client rfl).imp_right fun h => ⟨h.1, fun _ => h.2⟩
  | ping =>
    simp only [handleSerialFrame, tcpPayload]
    cases encodeFrame .pong seq payload with
    | error error => exact (hkeeps client rfl).imp_right fun h => ⟨h.1, fun _ => h.2⟩
    | ok pong =>
      dsimp only
      cases ports.writeFrame client.serialOut pong with
      | error error => exact (hkeeps _ rfl).imp_right fun h => ⟨h.1, fun _ => h.2⟩
      | ok _ => exact (hkeeps _ rfl).imp_right fun h => ⟨h.1, fun _ => h.2⟩
  | _ => exact (hkeeps client rfl).imp_right fun h => ⟨h.1, fun _ => h.2⟩

theorem tcpOut_handleDecodeEvents (client : LinkClient) (events : List Link.DecodeEvent) :
    client.tcpOut <+: (handleDecodeEvents ports client events).2.tcpOut ∧
    (handleDecodeEvents ports client events).2.tcpOut <+:
      client.tcpOut ++ events.flatMap tcpPayload ∧
    ((handleDecodeEvents ports client events).1 = .ok .«continue» →
      (handleDecodeEvents ports client events).2.tcpOut =
        client.tcpOut ++ events.flatMap tcpPayload) := by
  induction events generalizing client with
  | nil =>
    have hnil : client.tcpOut ++ [].flatMap tcpPayload = client.tcpOut := List.append_nil _
    rw [handleDecodeEvents, hnil]
    exact ⟨List.prefix_rfl, List.prefix_rfl, fun _ => rfl⟩
  | cons event events ih =>
    rw [handleDecodeEvents, List.flatMap_cons]
    cases event with
    | error error =>
      exact ⟨List.prefix_rfl, List.prefix_append _ _, fun h => by cases h⟩
    | frame frame =>
      dsimp only [serialFrame]
      obtain ⟨hmore, hpart, hwhole⟩ := @tcpOut_handleSerialFrame ports client frame
      rcases hframe : handleSerialFrame ports client frame with ⟨_ | (_ | _), next⟩
      · rw [hframe] at hmore hpart
        refine ⟨hmore, hpart.trans ?_, fun h => by cases h⟩
        rw [← List.append_assoc]
        exact List.prefix_append _ _
      · rw [hframe] at hmore hwhole
        obtain ⟨hnext, hpart', hwhole'⟩ := ih next
        dsimp only at hwhole hmore ⊢
        rw [hwhole rfl, List.append_assoc] at hpart' hwhole'
        exact ⟨hmore.trans hnext, hpart', hwhole'⟩
      · rw [hframe] at hmore hpart
        refine ⟨hmore, hpart.trans ?_, fun h => by cases h⟩
        rw [← List.append_assoc]
        exact List.prefix_append _ _

end StarrySky.Bridge
