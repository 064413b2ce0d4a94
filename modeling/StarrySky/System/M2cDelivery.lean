import StarrySky.Bridge.SerialDrain
import StarrySky.Firmware.M2cPayload
import StarrySky.Firmware.ReadBoundary
import StarrySky.System.LinkCodec

/-! The server's bytes on their whole way: from its ring through the firmware's session, over the
wire, through the bridge's reads and drains to the client's socket. -/

namespace StarrySky.System
open StarrySky.Base StarrySky.Link StarrySky.Firmware StarrySky.Bridge
open StarrySky.Bridge.Link (DecodeEvent Decoder)

/-- What a call does to the data frames: nothing, whatever it queues on the control ring. -/
def KeepsDataTx (s t : LinkSession) : Prop :=
  t.txSeqNext = s.txSeqNext ∧ ∀ m, TxRel s m → ∃ m', TxRel t m' ∧ m'.output = m.output ∧
    m'.line = m.line ∧ m'.framesOf .data = m.framesOf .data

theorem keepsDataTx_of_sameTx {s t : LinkSession} (h : SameTx s t)
    (hseq : t.txSeqNext = s.txSeqNext) : KeepsDataTx s t :=
  ⟨hseq, fun m hm => ⟨m, hm.congr h, rfl, rfl, rfl⟩⟩

theorem KeepsDataTx.trans {s t u : LinkSession} (h : KeepsDataTx s t) (h' : KeepsDataTx t u) :
    KeepsDataTx s u := by
  refine ⟨h'.1.trans h.1, fun m hm => ?_⟩
  obtain ⟨m', hm', houtput, hline, hframes⟩ := h.2 m hm
  obtain ⟨m'', hm'', houtput', hline', hframes'⟩ := h'.2 m' hm'
  exact ⟨m'', hm'', houtput'.trans houtput, hline'.trans hline, hframes'.trans hframes⟩

theorem KeepsDataTx.after {s t u : LinkSession} (h : KeepsDataTx t u) (hst : SameTx s t)
    (hseq : t.txSeqNext = s.txSeqNext) : KeepsDataTx s u :=
  (keepsDataTx_of_sameTx hst hseq).trans h

theorem keepsDataTx_queueControlFrame (s : LinkSession) {type : UInt8}
    (htype : type ≠ mcLinkDataM2c) (seq ack : UInt16) (payload : List UInt8) :
    KeepsDataTx s (queueControlFrame s type seq ack payload).2 := by
  refine ⟨(sameLink_queueControlFrame s type seq ack payload).txSeqNext, fun m hm => ?_⟩
  rcases hm.queueControlFrame type htype seq ack payload with h | h
  · exact ⟨m, h, rfl, rfl, rfl⟩
  · refine ⟨_, h, rfl, rfl, ?_⟩
    rw [Mux.framesOf_enqueue, if_neg (by decide), List.append_nil]

theorem keepsDataTx_queueError (s : LinkSession) (code detail : UInt8) :
    KeepsDataTx s (queueError s code detail).2 := by
  have hqueue := @keepsDataTx_queueControlFrame (s.raise code detail) mcLinkError (by decide) 0 0
    [code, detail]
  exact hqueue.after ⟨rfl, rfl, rfl, rfl, rfl, rfl⟩ rfl

theorem keepsDataTx_queueAckC2m (s : LinkSession) (ack : UInt16) :
    KeepsDataTx s (queueAckC2m s ack).2 := by
  have hqueue := @keepsDataTx_queueControlFrame s mcLinkAckC2m (by decide) 0 ack
    (leBytes (rxFreeCredit s))
  unfold queueAckC2m
  dsimp only
  split_ifs
  · exact hqueue.trans (keepsDataTx_of_sameTx ⟨rfl, rfl, rfl, rfl, rfl, rfl⟩ rfl)
  · exact hqueue

theorem keepsDataTx_handleDataC2m (s : LinkSession) (frame : McLinkFrame) :
    KeepsDataTx s (handleDataC2m s frame).2 := by
  unfold handleDataC2m
  dsimp only
  split_ifs
  · exact keepsDataTx_queueError s _ _
  · exact (keepsDataTx_queueAckC2m _ _).after ⟨rfl, rfl, rfl, rfl, rfl, rfl⟩ rfl
  · exact keepsDataTx_queueError s _ _
  · exact keepsDataTx_queueError s _ _
  · exact keepsDataTx_queueError s _ _
  · exact (keepsDataTx_queueError _ _ _).after ⟨rfl, rfl, rfl, rfl, rfl, rfl⟩ rfl
  · exact (keepsDataTx_queueAckC2m _ _).after ⟨rfl, rfl, rfl, rfl, rfl, rfl⟩ rfl

theorem keepsDataTx_handleFrame (s : LinkSession) {frame : McLinkFrame}
    (h : resetsLink frame = false) : KeepsDataTx s (handleFrame s frame).2 := by
  rw [resetsLink, Bool.or_eq_false_iff, Bool.and_eq_false_iff] at h
  obtain ⟨hreset, hhello⟩ := h
  unfold handleFrame
  split_ifs with htype
  · -- a `HELLO` without a payload size or a credit is answered with an error
    have hrefused : helloAgrees frame.payload = false :=
      hhello.resolve_left (by simp [htype])
    have herror : ∃ code detail, handleHello s frame = queueError s code detail := by
      unfold handleHello
      split
      · rename_i p0 p1 c0 c1 m0 m1 hpayload
        rw [hpayload] at hrefused
        dsimp only
        rw [if_pos]
        · exact ⟨_, _, rfl⟩
        · by_contra hneg
          rw [not_or] at hneg
          simp [helloAgrees, hneg.1, hneg.2] at hrefused
      · exact ⟨_, _, rfl⟩
    obtain ⟨code, detail, herror⟩ := herror
    rw [herror]
    exact keepsDataTx_queueError s _ _
  · rename_i htype'
    simp [htype'] at hreset
  · exact keepsDataTx_handleDataC2m s frame
  · exact keepsDataTx_queueControlFrame s (by decide) _ _ _
  · exact keepsDataTx_queueControlFrame s (by decide) _ _ _
  · exact keepsDataTx_queueError s _ _

theorem flatMap_tcpPayload_feed (bytes : List UInt8) :
    (Decoder.new.feed bytes).2.flatMap tcpPayload = m2cPayloads bytes := by
  have hnew : DecoderHolds Decoder.new [] := .buffered rfl rfl (by decide)
  have hevents := (feed_spec bytes hnew List.not_mem_nil).1
  rw [List.nil_append] at hevents
  have hframes : ∀ events : List DecodeEvent, events.flatMap tcpPayload =
      (events.filterMap DecodeEvent.frame?).flatMap fun frame => tcpPayload (.frame frame) := by
    intro events
    induction events with
    | nil => rfl
    | cons event events ih =>
      rw [List.flatMap_cons, ih]
      cases event with
      | frame frame => rfl
      | error error => rfl
  have htype : ∀ type : UInt8, Bridge.Link.FrameType.fromU8 type = .dataM2c ↔
      type = mcLinkDataM2c := by
    intro type
    constructor
    · intro h
      have hraw := congrArg Bridge.Link.FrameType.toU8 h
      rwa [Bridge.Link.FrameType.toU8_fromU8] at hraw
    · rintro rfl
      rfl
  rw [hframes, hevents, m2cPayloads, List.flatMap_map]
  congr 1
  funext frame
  simp only [tcpPayload, m2cPayload, Bridge.Link.Frame.ofMcLinkFrame, htype]

theorem m2cPayloads_mono {xs ys : List UInt8} (h : xs <+: ys) :
    m2cPayloads xs <+: m2cPayloads ys := by
  obtain ⟨later, rfl⟩ := h
  rw [m2cPayloads_append]
  exact List.prefix_append _ _

/-- The firmware with all it sent, the bytes that the bridge's reader has read, its reads in the
channel, what the last drain returned, and the client. -/
structure M2cDelivery where
  firmware : M2cState
  taken : List UInt8
  channel : List SerialRxEvent
  result : Except IoError SerialDrain
  client : LinkClient

/-- The firmware's calls, the reads of the bridge's reader and the drains of its client loop, in
any order. No frame that the firmware receives resets the link. -/
inductive M2cDeliveryOp
  | firmware (op : M2cOp)
  | frame (frame : McLinkFrame) (hframe : resetsLink frame = false)
  | creditConsumed (consumedLen : ℕ)
  | read (maxLen : ℕ)
  | drain

def deliveryStep (ports : ClientPorts) (t : M2cDelivery) : M2cDeliveryOp → M2cDelivery
  | .firmware op => { t with firmware := m2cStep t.firmware op }
  | .frame frame _ =>
    { t with firmware := { t.firmware with
        session := (handleFrame t.firmware.session frame).2 } }
  | .creditConsumed consumedLen =>
    { t with firmware := { t.firmware with
        session := mcLinkSessionCreditConsumed t.firmware.session consumedLen } }
  | .read maxLen =>
    let bytes := (t.firmware.out.drop t.taken.length).take maxLen
    if bytes = [] then t
    else { t with taken := t.taken ++ bytes, channel := t.channel ++ [.bytes bytes] }
  | .drain =>
    match t.result with
    | .ok .«continue» =>
      let drained := drainSerialRxEvents ports t.client t.channel
      { t with result := drained.1, client := drained.2.1, channel := drained.2.2 }
    | _ => t

def deliveryRun (ports : ClientPorts) (t : M2cDelivery) (ops : List M2cDeliveryOp) : M2cDelivery :=
  ops.foldl (deliveryStep ports) t

/-- A session between two frames whose data ring is empty, and a client with a new decoder. -/
def deliveryStart (s : LinkSession) (txCap : ℕ) (negotiatedPayload : UInt16) (serverCap : ℕ)
    (client : LinkClient) : M2cDelivery :=
  { firmware := m2cStart s txCap negotiatedPayload serverCap
    taken := []
    channel := []
    result := .ok .«continue»
    client := { client with decoder := .new, tcpOut := [] } }

/-- No server byte is lost before the wire, the reader reads the wire, and the client is where the
bytes it handled bring it. -/
structure Delivering (ports : ClientPorts) (client₀ : LinkClient) (m₀ : TxMux)
    (t : M2cDelivery) : Prop where
  kept : M2cKept m₀ t.firmware
  taken_prefix : t.taken <+: t.firmware.out
  handled : ∃ (handled : List UInt8) (left : List (List UInt8)), t.taken = handled ++ left.flatten ∧
    (t.result, t.client) = handleSerialRxBytes ports client₀ handled ∧
    (t.result = .ok .«continue» → t.channel = left.map .bytes)

variable {ports : ClientPorts} {client₀ : LinkClient} {m₀ : TxMux} {t : M2cDelivery}

theorem m2cKept_of_keepsDataTx {u : M2cState} (h : M2cKept m₀ u) {s : LinkSession}
    (hs : KeepsDataTx u.session s) : M2cKept m₀ { u with session := s } := by
  obtain ⟨m, hm, houtput, hbytes⟩ := h
  obtain ⟨m', hm', houtput', _, hframes⟩ := hs.2 m hm
  refine ⟨m', hm', houtput'.trans houtput, ?_⟩
  rw [hframes]
  exact hbytes

theorem Delivering.withFirmware (h : Delivering ports client₀ m₀ t) {u : M2cState}
    (hkept : M2cKept m₀ u) (hout : t.firmware.out <+: u.out) :
    Delivering ports client₀ m₀ { t with firmware := u } :=
  ⟨hkept, h.taken_prefix.trans hout, h.handled⟩

theorem Delivering.step (h : Delivering ports client₀ m₀ t) (op : M2cDeliveryOp) :
    Delivering ports client₀ m₀ (deliveryStep ports t op) := by
  cases op with
  | firmware op =>
    apply h.withFirmware (h.kept.step op)
    cases op with
    | readTx maxLen => exact List.prefix_append _ _
    | _ => exact List.prefix_rfl
  | frame frame hframe =>
    have hkept := m2cKept_of_keepsDataTx h.kept (keepsDataTx_handleFrame _ hframe)
    exact h.withFirmware hkept List.prefix_rfl
  | creditConsumed consumedLen =>
    have hkept := m2cKept_of_keepsDataTx h.kept (keepsDataTx_queueAckC2m _ 0)
    exact h.withFirmware hkept List.prefix_rfl
  | read maxLen =>
    rw [deliveryStep]
    split_ifs with hnone
    · exact h
    obtain ⟨handled, left, htaken, hclient, hchannel⟩ := h.handled
    have hpart : ((t.firmware.out.drop t.taken.length).take maxLen) <+:
        t.firmware.out.drop t.taken.length := List.take_prefix _ _
    generalize (t.firmware.out.drop t.taken.length).take maxLen = bytes at hpart ⊢
    refine ⟨h.kept, ?_, handled, left ++ [bytes], ?_, hclient, fun hgoes => ?_⟩
    · obtain ⟨later, hlater⟩ := h.taken_prefix
      have hrest : t.firmware.out.drop t.taken.length = later := by
        rw [← hlater, List.drop_left]
      rw [hrest] at hpart
      dsimp only
      rw [← hlater]
      exact (List.prefix_append_right_inj _).mpr hpart
    · dsimp only
      rw [htaken, List.flatten_append, List.flatten_singleton, List.append_assoc]
    · dsimp only at hgoes ⊢
      rw [hchannel hgoes, List.map_append, List.map_singleton]
  | drain =>
    obtain ⟨handled, left, htaken, hclient, hchannel⟩ := h.handled
    rw [deliveryStep]
    rcases hresult : t.result with error | (_ | _)
    · exact h
    · -- the calls so far went on
      obtain ⟨more, left', hleft, hdrain, _⟩ := @drainLoop_bytes ports 0 (by decide) 0 t.client left
      have hgone : handleSerialRxBytes ports client₀ handled = (.ok .«continue», t.client) := by
        rw [← hclient, hresult]
      have hnext := handleSerialRxBytes_append hgone more.flatten
      dsimp only
      rw [drainSerialRxEvents, hchannel hresult, hdrain]
      refine ⟨h.kept, h.taken_prefix, handled ++ more.flatten, left', ?_, ?_, fun _ => rfl⟩
      · dsimp only
        rw [htaken, hleft, List.flatten_append, List.append_assoc]
      · exact hnext.symm
    · exact h

theorem Delivering.run (h : Delivering ports client₀ m₀ t) (ops : List M2cDeliveryOp) :
    Delivering ports client₀ m₀ (deliveryRun ports t ops) := by
  induction ops generalizing t with
  | nil => exact h
  | cons op ops ih => exact ih (h.step op)

/-- What the socket has got is a beginning of what the wire carries, and all that the handled bytes
carry while the client goes on. -/
theorem Delivering.tcpOut (h : Delivering ports client₀ m₀ t) (hdecoder : client₀.decoder = .new)
    (hnone : client₀.tcpOut = []) :
    t.client.tcpOut <+: m2cPayloads t.firmware.out ∧
    (t.result = .ok .«continue» → t.channel = [] → t.client.tcpOut = m2cPayloads t.taken) := by
  obtain ⟨handled, left, htaken, hclient, hchannel⟩ := h.handled
  obtain ⟨_, hpart, hwhole⟩ := @tcpOut_handleDecodeEvents ports client₀
    (client₀.decoder.feed handled).2
  rw [handleSerialRxBytes_eq] at hclient
  obtain ⟨hresult, hlast⟩ := Prod.mk.inj hclient
  have hout : t.client.tcpOut =
      (handleDecodeEvents ports client₀ (client₀.decoder.feed handled).2).2.tcpOut := by
    rw [hlast]
    rfl
  rw [← hout, hdecoder, flatMap_tcpPayload_feed, hnone, List.nil_append] at hpart hwhole
  refine ⟨?_, fun hgoes hempty => ?_⟩
  · have hhandled : handled <+: t.firmware.out := by
      apply List.IsPrefix.trans _ h.taken_prefix
      rw [htaken]
      exact List.prefix_append _ _
    exact hpart.trans (m2cPayloads_mono hhandled)
  · have hleft : left = [] := by
      rw [hchannel hgoes] at hempty
      exact List.map_eq_nil_iff.mp hempty
    rw [htaken, hleft, List.flatten_nil, List.append_nil]
    apply hwhole
    rw [← hdecoder, ← hresult]
    exact hgoes

/-- Whatever the firmware's calls, the link's frames, the reader's reads, the drains and the ports
do, the socket gets a beginning of the bytes that the server enqueued: none is lost, doubled or
moved. When nothing is left on the way and the client goes on, it has got them all. -/
theorem deliveryRun_tcpOut (ports : ClientPorts) (rx : Ringbuf UInt8) (calls : List SessionOp)
    (hidle : (sessionRun (mcLinkSessionInit rx) calls).2.activeTxQueue = none)
    (txCap : ℕ) (negotiatedPayload : UInt16) (serverCap : ℕ) (client : LinkClient)
    (ops : List M2cDeliveryOp) :
    let t := deliveryRun ports (deliveryStart (sessionRun (mcLinkSessionInit rx) calls).2 txCap
      negotiatedPayload serverCap client) ops
    t.client.tcpOut <+: t.firmware.enqueued ∧
    (t.result = .ok .«continue» → t.channel = [] → t.taken = t.firmware.out →
      t.firmware.queuedBytes = [] → t.firmware.serverTx.items = [] →
      t.client.tcpOut = t.firmware.enqueued) := by
  obtain ⟨m, hm, _⟩ := (txRel_init rx).sessionRun calls
  have hnone := hm.activeTxQueue_eq_none.mp hidle
  obtain ⟨start, hstart⟩ : ∃ start, start = deliveryStart
      (sessionRun (mcLinkSessionInit rx) calls).2 txCap negotiatedPayload serverCap client :=
    ⟨_, rfl⟩
  have hsession : TxRel start.firmware.session (m.forget .data) := by
    rw [hstart]
    refine hm.forget ?_ ?_ rfl (fun _ => rfl) rfl
    · rw [Mux.tailOf, hnone]
      rfl
    · rintro (_ | _) hp
      · exact absurd rfl hp
      · rfl
  have hkept : M2cKept (m.forget .data) start.firmware := by
    refine ⟨_, hsession, ?_, ?_⟩
    · rw [hstart]
      exact (List.append_nil _).symm
    · rw [hstart]
      rfl
  have hdelivering : Delivering ports start.client (m.forget .data) start := by
    refine ⟨hkept, ?_, [], [], ?_, ?_, fun _ => ?_⟩
    · rw [hstart]
      exact List.prefix_rfl
    · rw [hstart]
      rfl
    · rw [hstart]
      rfl
    · rw [hstart]
      rfl
  rw [← hstart]
  intro t
  have hrun := hdelivering.run ops
  have hpayloads := hrun.kept.payloads hsession hnone (by simp [Mux.forget])
  obtain ⟨hpart, hwhole⟩ := hrun.tcpOut (by rw [hstart]; rfl) (by rw [hstart]; rfl)
  refine ⟨?_, fun hgoes hchannel htaken hqueued hserver => ?_⟩
  · apply hpart.trans
    rw [← hpayloads, List.append_assoc]
    exact List.prefix_append _ _
  · have hnil : m2cPayloads [] = [] := m2cPayloads_of_notMem List.not_mem_nil
    rw [hwhole hgoes hchannel, htaken, ← hpayloads, hqueued, hserver, hnil, List.append_nil,
      List.append_nil]

/-- A client whose link has just started. -/
def startedClient : LinkClient where
  decoder := .new
  c2mSender := .new 497 8192
  rateController := .new
  credit := 8192
  m2cSeqExpected := 0
  serialToTcpTotal := 0
  nextResetSeq := 1
  tcpOut := []
  serialOut := []
  acked := []

def threeReads : List M2cDeliveryOp :=
  [.firmware (.enqueue [1, 2, 3, 4, 5, 6]), .firmware .queueServerTx, .firmware (.readTx 512),
    .read 3, .read 4, .drain, .read 64, .firmware .queueServerTx, .firmware (.readTx 512), .drain,
    .read 64, .drain]

/-- Three reads of a frame of four bytes, two drained before the last one, and one more frame. -/
theorem deliveryRun_tcpOut_threeReads :
    let t := deliveryRun { writeAll := fun _ _ => none, writeFrame := fun _ _ => .ok () }
      (deliveryStart (sessionRun (mcLinkSessionInit (.init 8192)) []).2 2048 4 49152 startedClient)
      threeReads
    t.client.tcpOut <+: t.firmware.enqueued ∧ t.client.tcpOut = t.firmware.enqueued ∧
      t.firmware.enqueued = [1, 2, 3, 4, 5, 6] := by
  have hrun := deliveryRun_tcpOut
    { writeAll := fun _ _ => none, writeFrame := fun _ _ => .ok () } (.init 8192) [] rfl 2048 4
    49152 startedClient threeReads
  refine ⟨hrun.1, hrun.2 ?_ ?_ ?_ ?_ ?_, ?_⟩
  · decide +kernel
  · decide +kernel
  · decide +kernel
  · decide +kernel
  · decide +kernel
  · decide +kernel

end StarrySky.System
