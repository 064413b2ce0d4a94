import StarrySky.System.C2mFlow

/-! What HELLO and READY agree on: the session's link parameters over a run, and the READY
frames as the bridge reads them. -/

namespace StarrySky.System
open StarrySky.Base StarrySky.Link StarrySky.Firmware

/-- What a session is given to do. The bytes of a call reach it frame by frame; what they do
to the parser is any parser. -/
inductive LinkEvent
  | parsed (parser : McLinkParser)
  | frame (frame : McLinkFrame)
  | resetAfterError (code detail : UInt8)
  | queueServerTx (serverTx : Ringbuf UInt8)
  | creditConsumed (consumedLen : ℕ)
  | dropQueuedData
  | readTx (maxLen : ℕ)
  | readRx (maxLen : ℕ)

def eventStep (s : LinkSession) : LinkEvent → LinkSession
  | .parsed parser => { s with parser := parser }
  | .frame frame => (handleFrame s frame).2
  | .resetAfterError code detail => (sessionStep s (.resetAfterError code detail)).2
  | .queueServerTx serverTx => (sessionStep s (.queueServerTx serverTx)).2
  | .creditConsumed consumedLen => (sessionStep s (.creditConsumed consumedLen)).2
  | .dropQueuedData => (sessionStep s .dropQueuedData).2
  | .readTx maxLen => (sessionStep s (.readTx maxLen)).2
  | .readRx maxLen => (sessionStep s (.readRx maxLen)).2

def eventRun (s : LinkSession) (events : List LinkEvent) : LinkSession := events.foldl eventStep s

theorem eventRun_concat (s : LinkSession) (events : List LinkEvent) (event : LinkEvent) :
    eventRun s (events ++ [event]) = eventStep (eventRun s events) event :=
  List.foldl_concat _ _ _ _

/-- Received bytes are a run of frames. -/
theorem exists_eventRun_mcLinkSessionReceiveBytes (s : LinkSession) (src : List UInt8) :
    ∃ events, (mcLinkSessionReceiveBytes s src).2 = eventRun s events := by
  refine mcLinkSessionReceiveBytes_preserves (fun t => ∃ events, t = eventRun s events) ?_ ?_ s src
    ⟨[], rfl⟩
  · rintro t parser ⟨events, rfl⟩
    exact ⟨_, (eventRun_concat s events (.parsed parser)).symm⟩
  · rintro t frame ⟨events, rfl⟩
    exact ⟨_, (eventRun_concat s events (.frame frame)).symm⟩

structure Capabilities where
  payload : UInt16
  credit : UInt16
  rateMask : UInt16
deriving DecidableEq, Repr

def capabilities (s : LinkSession) : Capabilities where
  payload := s.negotiatedPayload
  credit := s.creditCap
  rateMask := s.supportedRateMask

/-- What a HELLO asks for: a payload and a credit other than zero, in six bytes. -/
def helloRequest (payload : List UInt8) : Option Capabilities :=
  match payload with
  | [p0, p1, c0, c1, m0, m1] =>
    if ofLeBytes p0 p1 = 0 ∨ ofLeBytes c0 c1 = 0 then none
    else some { payload := ofLeBytes p0 p1, credit := ofLeBytes c0 c1, rateMask := ofLeBytes m0 m1 }
  | _ => none

/-- The last request that was accepted. -/
def lastRequest (events : List LinkEvent) : Option Capabilities :=
  events.foldl (fun last event => match event with
    | .frame frame =>
      if frame.type = mcLinkHello then (helloRequest frame.payload).or last else last
    | _ => last) none

theorem lastRequest_frame (events : List LinkEvent) (frame : McLinkFrame) :
    lastRequest (events ++ [.frame frame]) =
      if frame.type = mcLinkHello then (helloRequest frame.payload).or (lastRequest events)
      else lastRequest events := List.foldl_concat _ _ _ _

/-- What the firmware grants: up to 497 bytes, up to 512 credit, profiles 0 to 9 and always 0. -/
structure Granted (request : Option Capabilities) (granted : Capabilities) : Prop where
  payload : granted.payload.toNat = (request.elim 497 fun r => min r.payload.toNat 497)
  credit : granted.credit.toNat = (request.elim 512 fun r => min r.credit.toNat 512)
  rateMask : granted.rateMask = (request.elim 0x3ff fun r => (r.rateMask &&& 0x3ff) ||| 1)

/-- The bridge decodes the frames that `s` did not queue yet, and the READY frames among them
carry the parameters of `t`. -/
def ReadyAgrees (s t : LinkSession) : Prop :=
  ∃ queued, t.history.queuedControl = s.history.queuedControl ++ queued ∧
    ∀ bytes ∈ queued, ∃ frame, Bridge.Link.decodeOne bytes = .ok frame ∧
      (frame.frameType = .ready →
        (Bridge.Link.parseReady frame.payload).bind Bridge.normalizeReady =
          some { negotiatedPayload := (capabilities t).payload.toNat
                 initialCredit := (capabilities t).credit
                 supportedRateMask := (capabilities t).rateMask })

theorem readyAgrees_of_history {s t : LinkSession}
    (h : t.history.queuedControl = s.history.queuedControl) : ReadyAgrees s t :=
  ⟨[], by rw [h, List.append_nil], fun _ hmem => absurd hmem List.not_mem_nil⟩

theorem ReadyAgrees.trans {s t u : LinkSession} (h : ReadyAgrees s t) (h' : ReadyAgrees t u)
    (hsame : capabilities u = capabilities t) : ReadyAgrees s u := by
  obtain ⟨queued, hqueued, hready⟩ := h
  obtain ⟨queued', hqueued', hready'⟩ := h'
  refine ⟨queued ++ queued', by rw [hqueued', hqueued, List.append_assoc], ?_⟩
  intro bytes hmem
  rw [List.mem_append] at hmem
  obtain hfirst | hsecond := hmem
  · rw [hsame]
    exact hready bytes hfirst
  · exact hready' bytes hsecond

theorem ReadyAgrees.congr {s s' t : LinkSession} (h : ReadyAgrees s t)
    (hhistory : s'.history.queuedControl = s.history.queuedControl) : ReadyAgrees s' t := by
  obtain ⟨queued, hqueued, hready⟩ := h
  exact ⟨queued, by rw [hqueued, hhistory], hready⟩

theorem capabilities_sameLink {s t : LinkSession} (h : SameLink s t) :
    capabilities t = capabilities s := by
  rw [capabilities, capabilities, h.negotiatedPayload, h.creditCap, h.supportedRateMask]

theorem capabilities_linkReset {s t : LinkSession} (h : LinkReset s t) :
    capabilities t = capabilities s := by
  rw [capabilities, capabilities, h.negotiatedPayload, h.creditCap, h.supportedRateMask]

theorem readyAgrees_queueControlFrame {s : LinkSession} {type : UInt8} (seq ack : UInt16)
    {payload : List UInt8}
    (h : type = mcLinkReady → (Bridge.Link.parseReady payload).bind Bridge.normalizeReady =
      some { negotiatedPayload := (capabilities s).payload.toNat
             initialCredit := (capabilities s).credit
             supportedRateMask := (capabilities s).rateMask }) :
    ReadyAgrees s (queueControlFrame s type seq ack payload).2 := by
  have hsame := capabilities_sameLink (sameLink_queueControlFrame s type seq ack payload)
  rw [queueControlFrame] at hsame ⊢
  rw [queueFrame_eq] at hsame ⊢
  split_ifs at hsame ⊢ with hroom
  · refine ⟨[mcLinkFrameBytes type seq ack payload], rfl, ?_⟩
    intro bytes hmem
    rw [List.mem_singleton.mp hmem]
    refine ⟨_, Bridge.Link.decodeOne_mcLinkFrameBytes hroom.1 _ _ _, fun hready => ?_⟩
    rw [hsame]
    exact h (eq_toU8_of_fromU8 hready)
  · exact readyAgrees_of_history rfl

theorem readyAgrees_queueReady {s : LinkSession} (h : Negotiated s) :
    ReadyAgrees s (queueReady s).2 :=
  readyAgrees_queueControlFrame 0 0 fun _ => normalizeReady_readyPayload h

theorem readyAgrees_queueAckC2m (s : LinkSession) (ack : UInt16) :
    ReadyAgrees s (queueAckC2m s ack).2 := by
  have hqueue := @readyAgrees_queueControlFrame s mcLinkAckC2m 0 ack (leBytes (rxFreeCredit s))
    (fun h => absurd h (by decide))
  rw [queueAckC2m]
  dsimp only
  split_ifs
  · exact hqueue
  · exact hqueue

theorem readyAgrees_queueError (s : LinkSession) (code detail : UInt8) :
    ReadyAgrees s (queueError s code detail).2 :=
  (@readyAgrees_queueControlFrame (s.raise code detail) mcLinkError 0 0 [code, detail]
    (fun h => absurd h (by decide))).congr rfl

def grantedSession (s : LinkSession) (request : Capabilities) : LinkSession :=
  { resetLinkState s with
    negotiatedPayload := minU16 request.payload mcLinkDefaultPayload
    creditCap := minU16 request.credit mcLinkInitialCredit
    supportedRateMask := (request.rateMask &&& mcLinkFirmwareSupportedRateMask) ||| 1
    activeRateProfile := 0 }

theorem handleHello_eq (s : LinkSession) (frame : McLinkFrame) :
    handleHello s frame =
      match helloRequest frame.payload with
      | some request => queueReady (grantedSession s request)
      | none => queueError s mcLinkErrBadLength 0 := by
  rw [handleHello]
  split
  case h_1 p0 p1 c0 c1 m0 m1 hpayload =>
    rw [hpayload, helloRequest]
    dsimp only
    split_ifs with hzero
    · rfl
    · simp only [grantedSession]
  case h_2 hother =>
    have hnone : helloRequest frame.payload = none := by
      rw [helloRequest]
      exact hother
    rw [hnone]

theorem negotiated_grantedSession {s : LinkSession} (h : Negotiated s) {frame : McLinkFrame}
    {request : Capabilities} (hrequest : helloRequest frame.payload = some request) :
    Negotiated (grantedSession s request) := by
  have hhello := negotiated_handleHello h frame
  rw [handleHello_eq, hrequest] at hhello
  have hsame := sameLink_queueReady (grantedSession s request)
  exact hhello.sameLink ⟨hsame.1.symm, hsame.2.symm, hsame.3.symm, hsame.4.symm, hsame.5.symm,
    hsame.6.symm, hsame.7.symm, hsame.8.symm, hsame.9.symm, hsame.10.symm⟩

theorem readyAgrees_handleHello {s : LinkSession} (h : Negotiated s) (frame : McLinkFrame) :
    ReadyAgrees s (handleHello s frame).2 := by
  rw [handleHello_eq]
  cases hrequest : helloRequest frame.payload with
  | none => exact readyAgrees_queueError s _ _
  | some request =>
    refine (readyAgrees_queueReady (negotiated_grantedSession h hrequest)).congr ?_
    exact (congrArg SessionHistory.queuedControl (history_resetLinkState s)).symm

theorem readyAgrees_handleReset {s : LinkSession} (h : Negotiated s) (frame : McLinkFrame) :
    ReadyAgrees s (handleReset s frame).2 := by
  have hreset : Negotiated { resetLinkState s with resetRequested := true } := by
    have hlink := h.linkReset (linkReset_resetLinkState s)
    exact ⟨hlink.1, hlink.2, hlink.3, hlink.4, hlink.5⟩
  have hack := @readyAgrees_queueControlFrame { resetLinkState s with resetRequested := true }
    mcLinkResetAck frame.seq frame.ack [] (fun h => absurd h (by decide))
  have hsame := sameLink_queueControlFrame { resetLinkState s with resetRequested := true }
    mcLinkResetAck frame.seq frame.ack []
  have hstart : s.history.queuedControl = (resetLinkState s).history.queuedControl :=
    (congrArg SessionHistory.queuedControl (history_resetLinkState s)).symm
  rw [handleReset]
  dsimp only
  split_ifs
  · refine ReadyAgrees.congr (hack.trans (readyAgrees_queueReady (hreset.sameLink hsame)) ?_) hstart
    exact capabilities_sameLink (sameLink_queueReady _)
  · exact hack.congr hstart

theorem readyAgrees_handleDataC2m (s : LinkSession) (frame : McLinkFrame) :
    ReadyAgrees s (handleDataC2m s frame).2 := by
  unfold handleDataC2m
  dsimp only
  split_ifs
  · exact readyAgrees_queueError s _ _
  · exact (readyAgrees_queueAckC2m _ _).congr rfl
  · exact readyAgrees_queueError s _ _
  · exact readyAgrees_queueError s _ _
  · exact readyAgrees_queueError s _ _
  · exact (readyAgrees_queueError _ _ _).congr rfl
  · exact (readyAgrees_queueAckC2m _ _).congr rfl

theorem readyAgrees_handleFrame {s : LinkSession} (h : Negotiated s) (frame : McLinkFrame) :
    ReadyAgrees s (handleFrame s frame).2 := by
  unfold handleFrame
  split_ifs
  · exact readyAgrees_handleHello h frame
  · exact readyAgrees_handleReset h frame
  · exact readyAgrees_handleDataC2m s frame
  · exact readyAgrees_queueControlFrame _ _ fun h => absurd h (by decide)
  · exact readyAgrees_queueControlFrame _ _ fun h => absurd h (by decide)
  · exact readyAgrees_queueError s _ _

theorem readyAgrees_resetAfterError {s : LinkSession} (h : Negotiated s) (code detail : UInt8) :
    ReadyAgrees s (mcLinkSessionResetAfterError s code detail).2 := by
  have herror := readyAgrees_queueError s code detail
  have hsame := sameLink_queueError s code detail
  unfold mcLinkSessionResetAfterError
  dsimp only
  split_ifs
  · generalize (queueError s code detail).2 = t at herror hsame ⊢
    have hreset := linkReset_resetLinkStatePreservingControlTx t
    have hready := readyAgrees_queueReady ((h.sameLink hsame).linkReset hreset)
    have hhistory := congrArg SessionHistory.queuedControl
      (history_resetLinkStatePreservingControlTx t)
    refine herror.trans (hready.congr hhistory.symm) ?_
    rw [capabilities_sameLink (sameLink_queueReady _), capabilities_linkReset hreset]
  · exact herror

theorem readyAgrees_eventStep {s : LinkSession} (h : Negotiated s) (event : LinkEvent) :
    ReadyAgrees s (eventStep s event) := by
  cases event with
  | parsed parser => exact readyAgrees_of_history rfl
  | frame frame => exact readyAgrees_handleFrame h frame
  | resetAfterError code detail => exact readyAgrees_resetAfterError h code detail
  | queueServerTx serverTx =>
    apply readyAgrees_of_history
    rw [eventStep, sessionStep]
    rcases mcLinkSessionQueueServerTx_cases s serverTx with
      hsent | hsent | ⟨_, payload, _, _, _, _, _, _, hsent⟩
    · rw [hsent]
    · rw [hsent]
      rfl
    · rw [hsent]
      rfl
  | creditConsumed consumedLen => exact readyAgrees_queueAckC2m s 0
  | dropQueuedData =>
    have hhistory := history_mcLinkSessionDropQueuedData s
    exact readyAgrees_of_history (congrArg SessionHistory.queuedControl hhistory)
  | readTx maxLen =>
    have hhistory := history_mcLinkSessionReadTx s maxLen
    exact readyAgrees_of_history (congrArg SessionHistory.queuedControl hhistory)
  | readRx maxLen => exact readyAgrees_of_history rfl

theorem negotiated_eventStep {s : LinkSession} (h : Negotiated s) (event : LinkEvent) :
    Negotiated (eventStep s event) := by
  cases event with
  | parsed parser => exact ⟨h.1, h.2, h.3, h.4, h.5⟩
  | frame frame => exact negotiated_handleFrame h frame
  | resetAfterError code detail => exact h.sessionStep (.resetAfterError code detail)
  | queueServerTx serverTx => exact h.sessionStep (.queueServerTx serverTx)
  | creditConsumed consumedLen => exact h.sessionStep (.creditConsumed consumedLen)
  | dropQueuedData => exact h.sessionStep .dropQueuedData
  | readTx maxLen => exact h.sessionStep (.readTx maxLen)
  | readRx maxLen => exact h.sessionStep (.readRx maxLen)

theorem capabilities_handleDataC2m (s : LinkSession) (frame : McLinkFrame) :
    capabilities (handleDataC2m s frame).2 = capabilities s := by
  unfold handleDataC2m
  dsimp only
  split_ifs
  · exact capabilities_sameLink (sameLink_queueError s _ _)
  · exact (capabilities_sameLink (sameLink_queueAckC2m _ _)).trans rfl
  · exact capabilities_sameLink (sameLink_queueError s _ _)
  · exact capabilities_sameLink (sameLink_queueError s _ _)
  · exact capabilities_sameLink (sameLink_queueError s _ _)
  · exact (capabilities_sameLink (sameLink_queueError _ _ _)).trans rfl
  · exact (capabilities_sameLink (sameLink_queueAckC2m _ _)).trans rfl

theorem capabilities_handleReset (s : LinkSession) (frame : McLinkFrame) :
    capabilities (handleReset s frame).2 = capabilities s :=
  (capabilities_linkReset (linkReset_handleReset s frame)).trans rfl

theorem capabilities_resetAfterError (s : LinkSession) (code detail : UInt8) :
    capabilities (mcLinkSessionResetAfterError s code detail).2 = capabilities s := by
  have herror := capabilities_sameLink (sameLink_queueError s code detail)
  unfold mcLinkSessionResetAfterError
  dsimp only
  split_ifs
  · have hreset := capabilities_linkReset
      (linkReset_resetLinkStatePreservingControlTx (queueError s code detail).2)
    exact (capabilities_sameLink (sameLink_queueReady _)).trans (hreset.trans herror)
  · exact herror

theorem capabilities_handleFrame {s : LinkSession} {frame : McLinkFrame}
    (h : frame.type ≠ mcLinkHello) : capabilities (handleFrame s frame).2 = capabilities s := by
  unfold handleFrame
  rw [if_neg h]
  split_ifs
  · exact capabilities_handleReset s frame
  · exact capabilities_handleDataC2m s frame
  · exact capabilities_sameLink (sameLink_queueControlFrame s _ _ _ _)
  · exact capabilities_sameLink (sameLink_queueControlFrame s _ _ _ _)
  · exact capabilities_sameLink (sameLink_queueError s _ _)

theorem granted_request (s : LinkSession) (request : Capabilities) :
    Granted (some request) (capabilities (grantedSession s request)) := by
  refine ⟨?_, ?_, rfl⟩
  · exact toNat_minU16 _ _
  · exact toNat_minU16 _ _

theorem Granted.eventStep {s : LinkSession} {events : List LinkEvent}
    (h : Granted (lastRequest events) (capabilities s)) (event : LinkEvent) :
    Granted (lastRequest (events ++ [event])) (capabilities (eventStep s event)) := by
  have hkeep : ∀ {t}, capabilities t = capabilities s →
      lastRequest (events ++ [event]) = lastRequest events →
        Granted (lastRequest (events ++ [event])) (capabilities t) := by
    intro t hsame hlast
    rw [hsame, hlast]
    exact h
  cases event with
  | frame frame =>
    by_cases hhello : frame.type = mcLinkHello
    · rw [lastRequest_frame, if_pos hhello, System.eventStep, handleFrame, if_pos hhello,
        handleHello_eq]
      cases hrequest : helloRequest frame.payload with
      | none =>
        rw [Option.none_or, capabilities_sameLink (sameLink_queueError s _ _)]
        exact h
      | some request =>
        rw [Option.some_or]
        dsimp only
        rw [capabilities_sameLink (sameLink_queueReady _)]
        exact granted_request s request
    · refine hkeep (capabilities_handleFrame hhello) ?_
      rw [lastRequest_frame, if_neg hhello]
  | parsed parser => exact hkeep rfl (List.foldl_concat _ _ _ _)
  | resetAfterError code detail =>
    exact hkeep (capabilities_resetAfterError s code detail) (List.foldl_concat _ _ _ _)
  | queueServerTx serverTx =>
    refine hkeep ?_ (List.foldl_concat _ _ _ _)
    rcases mcLinkSessionQueueServerTx_cases s serverTx with
      hsent | hsent | ⟨_, payload, _, _, _, _, _, _, hsent⟩
    · rw [System.eventStep, sessionStep, hsent]
    · rw [System.eventStep, sessionStep, hsent]
      rfl
    · rw [System.eventStep, sessionStep, hsent]
      rfl
  | creditConsumed consumedLen =>
    exact hkeep (capabilities_sameLink (sameLink_queueAckC2m s 0)) (List.foldl_concat _ _ _ _)
  | dropQueuedData =>
    exact hkeep (capabilities_sameLink (sameLink_mcLinkSessionDropQueuedData s))
      (List.foldl_concat _ _ _ _)
  | readTx maxLen =>
    exact hkeep (capabilities_sameLink (sameLink_mcLinkSessionReadTx s maxLen))
      (List.foldl_concat _ _ _ _)
  | readRx maxLen => exact hkeep rfl (List.foldl_concat _ _ _ _)

def badLengthFrame : List UInt8 := mcLinkFrameBytes mcLinkError 0 0 [mcLinkErrBadLength, 0]

/-- A refused HELLO changes no parameter, no sequence number and no data. -/
theorem handleFrame_refused {s : LinkSession} {frame : McLinkFrame}
    (hhello : frame.type = mcLinkHello) (hrequest : helloRequest frame.payload = none) :
    SameLink s (handleFrame s frame).2 ∧ (handleFrame s frame).2.tx = s.tx ∧
      (badLengthFrame.length ≤ s.controlTx.free →
        (handleFrame s frame).2.history.queuedControl =
          s.history.queuedControl ++ [badLengthFrame]) := by
  rw [handleFrame, if_pos hhello, handleHello_eq, hrequest]
  dsimp only
  refine ⟨sameLink_queueError s _ _, ?_, fun hroom => ?_⟩
  · rw [queueError, queueControlFrame, queueFrame_eq]
    split_ifs <;> rfl
  · rw [queueError, queueControlFrame, queueFrame_eq, if_pos ⟨by decide, hroom⟩]
    rfl

/-- What the two ends agree on in a state of the session. -/
structure NegotiationAgrees (request : Option Capabilities) (s : LinkSession) : Prop where
  granted : Granted request (capabilities s)
  payload : 1 ≤ s.negotiatedPayload.toNat ∧ s.negotiatedPayload.toNat ≤ 497
  credit : 1 ≤ s.creditCap.toNat ∧ s.creditCap.toNat ≤ 512
  ready : ∀ event, ReadyAgrees s (eventStep s event)
  refused : ∀ frame : McLinkFrame, frame.type = mcLinkHello →
    helloRequest frame.payload = none →
      SameLink s (eventStep s (.frame frame)) ∧ (eventStep s (.frame frame)).tx = s.tx ∧
        (badLengthFrame.length ≤ s.controlTx.free →
          (eventStep s (.frame frame)).history.queuedControl =
            s.history.queuedControl ++ [badLengthFrame])

theorem eventRun_invariant (rx : Ringbuf UInt8) (events : List LinkEvent) :
    Negotiated (eventRun (mcLinkSessionInit rx) events) ∧
      Granted (lastRequest events) (capabilities (eventRun (mcLinkSessionInit rx) events)) := by
  induction events using List.reverseRecOn with
  | nil => exact ⟨negotiated_init rx, ⟨rfl, rfl, rfl⟩⟩
  | append_singleton events event ih =>
    rw [eventRun_concat]
    exact ⟨negotiated_eventStep ih.1 event, ih.2.eventStep event⟩

/-- In every state that a run of frames and errors reaches. -/
theorem eventRun_negotiates (rx : Ringbuf UInt8) (events : List LinkEvent) :
    NegotiationAgrees (lastRequest events) (eventRun (mcLinkSessionInit rx) events) := by
  obtain ⟨hnegotiated, hgranted⟩ := eventRun_invariant rx events
  exact ⟨hgranted, hnegotiated.payload, hnegotiated.credit,
    fun event => readyAgrees_eventStep hnegotiated event,
    fun _ hhello hrequest => handleFrame_refused hhello hrequest⟩

end StarrySky.System
