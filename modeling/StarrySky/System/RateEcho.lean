import StarrySky.Bridge.RateProbe
import StarrySky.Firmware.M2cPayload
import StarrySky.System.LinkCodec
import StarrySky.System.Negotiation

/-! The firmware answers a RATE_PROBE or a PING with its number and payload: what it sends of such
answers are answers to frames it handled, in their order. So a rate that the bridge found good was
good for the firmware's side of the line too. -/

namespace StarrySky.System
open StarrySky.Base StarrySky.Link StarrySky.Firmware

inductive Echo
  | rateProbe | ping

def Echo.request : Echo → UInt8
  | rateProbe => mcLinkRateProbe
  | ping => mcLinkPing

def Echo.reply : Echo → UInt8
  | rateProbe => mcLinkRateProbeAck
  | ping => mcLinkPong

def repeated (type : UInt8) (frame : McLinkFrame) : Option (UInt16 × UInt16 × List UInt8) :=
  if frame.type = type then some (frame.seq, frame.ack, frame.payload) else none

def replies (echo : Echo) (frames : List (List UInt8)) : List (UInt16 × UInt16 × List UInt8) :=
  frames.flatMap fun bytes => (linkFrames bytes).filterMap (repeated echo.reply)

def requests (echo : Echo) (frames : List McLinkFrame) : List (UInt16 × UInt16 × List UInt8) :=
  frames.filterMap (repeated echo.request)

/-- The frames that `t` queued since `s` answer some of the requests. -/
def RepliesTo (echo : Echo) (seen : List (UInt16 × UInt16 × List UInt8)) (s t : LinkSession) :
    Prop :=
  ∃ queued, t.history.queuedControl = s.history.queuedControl ++ queued ∧
    (replies echo queued).Sublist seen

variable {echo : Echo} {seen : List (UInt16 × UInt16 × List UInt8)}

theorem repliesTo_of_history {s t : LinkSession}
    (h : t.history.queuedControl = s.history.queuedControl) : RepliesTo echo seen s t :=
  ⟨[], by rw [h, List.append_nil], List.nil_sublist _⟩

theorem RepliesTo.trans {later : List (UInt16 × UInt16 × List UInt8)} {s t u : LinkSession}
    (h : RepliesTo echo seen s t) (h' : RepliesTo echo later t u) :
    RepliesTo echo (seen ++ later) s u := by
  obtain ⟨queued, hqueued, hreplies⟩ := h
  obtain ⟨queued', hqueued', hreplies'⟩ := h'
  refine ⟨queued ++ queued', by rw [hqueued', hqueued, List.append_assoc], ?_⟩
  rw [replies, List.flatMap_append]
  exact hreplies.append hreplies'

theorem RepliesTo.congr {s s' t : LinkSession} (h : RepliesTo echo seen s t)
    (hhistory : s'.history.queuedControl = s.history.queuedControl) : RepliesTo echo seen s' t := by
  obtain ⟨queued, hqueued, hreplies⟩ := h
  exact ⟨queued, by rw [hqueued, hhistory], hreplies⟩

theorem replies_frame {payload : List UInt8} (hlen : payload.length ≤ mcLinkMaxPayload)
    (type : UInt8) (seq ack : UInt16) :
    replies echo [mcLinkFrameBytes type seq ack payload] =
      if type = echo.reply then [(seq, ack, payload)] else [] := by
  rw [replies, List.flatMap_singleton, linkFrames_mcLinkFrameBytes hlen]
  split_ifs with htype
  · exact List.filterMap_cons_some (if_pos htype)
  · exact List.filterMap_cons_none (if_neg htype)

theorem repliesTo_queueControlFrame (s : LinkSession) (type : UInt8) (seq ack : UInt16)
    (payload : List UInt8) :
    RepliesTo echo (if type = echo.reply then [(seq, ack, payload)] else []) s
      (queueControlFrame s type seq ack payload).2 := by
  rw [queueControlFrame, queueFrame_eq]
  by_cases hroom : payload.length ≤ mcLinkMaxPayload ∧
      (mcLinkFrameBytes type seq ack payload).length ≤ (s.ring .control).free
  · rw [if_pos hroom]
    refine ⟨[mcLinkFrameBytes type seq ack payload], rfl, ?_⟩
    rw [replies_frame hroom.1]
  · rw [if_neg hroom]
    exact repliesTo_of_history rfl

theorem repliesTo_queueOther (s : LinkSession) {type : UInt8} (h : type ≠ echo.reply)
    (seq ack : UInt16) (payload : List UInt8) :
    RepliesTo echo [] s (queueControlFrame s type seq ack payload).2 := by
  have hqueue := @repliesTo_queueControlFrame echo s type seq ack payload
  rwa [if_neg h] at hqueue

theorem repliesTo_queueReady (s : LinkSession) : RepliesTo echo [] s (queueReady s).2 :=
  repliesTo_queueOther s (by cases echo <;> decide) 0 0 _

theorem repliesTo_queueAckC2m (s : LinkSession) (ack : UInt16) :
    RepliesTo echo [] s (queueAckC2m s ack).2 := by
  have hqueue := @repliesTo_queueOther echo s mcLinkAckC2m (by cases echo <;> decide) 0 ack
    (leBytes (rxFreeCredit s))
  rw [queueAckC2m]
  dsimp only
  split_ifs
  · exact hqueue
  · exact hqueue

theorem repliesTo_queueError (s : LinkSession) (code detail : UInt8) :
    RepliesTo echo [] s (queueError s code detail).2 :=
  (@repliesTo_queueOther echo (s.raise code detail) mcLinkError (by cases echo <;> decide) 0 0
    [code, detail]).congr rfl

theorem repliesTo_handleHello (s : LinkSession) (frame : McLinkFrame) :
    RepliesTo echo [] s (handleHello s frame).2 := by
  rw [handleHello_eq]
  cases helloRequest frame.payload with
  | none => exact repliesTo_queueError s _ _
  | some request =>
    refine (repliesTo_queueReady (grantedSession s request)).congr ?_
    exact (congrArg SessionHistory.queuedControl (history_resetLinkState s)).symm

theorem repliesTo_handleReset (s : LinkSession) (frame : McLinkFrame) :
    RepliesTo echo [] s (handleReset s frame).2 := by
  have hack := @repliesTo_queueOther echo { resetLinkState s with resetRequested := true }
    mcLinkResetAck (by cases echo <;> decide) frame.seq frame.ack []
  have hstart : s.history.queuedControl = (resetLinkState s).history.queuedControl :=
    (congrArg SessionHistory.queuedControl (history_resetLinkState s)).symm
  rw [handleReset]
  dsimp only
  split_ifs
  · exact (hack.trans (repliesTo_queueReady _)).congr hstart
  · exact hack.congr hstart

theorem repliesTo_handleDataC2m (s : LinkSession) (frame : McLinkFrame) :
    RepliesTo echo [] s (handleDataC2m s frame).2 := by
  unfold handleDataC2m
  dsimp only
  split_ifs
  · exact repliesTo_queueError s _ _
  · exact (repliesTo_queueAckC2m _ _).congr rfl
  · exact repliesTo_queueError s _ _
  · exact repliesTo_queueError s _ _
  · exact repliesTo_queueError s _ _
  · exact (repliesTo_queueError _ _ _).congr rfl
  · exact (repliesTo_queueAckC2m _ _).congr rfl

theorem RepliesTo.of_nil {s t : LinkSession} (h : RepliesTo echo [] s t) : RepliesTo echo seen s t := by
  obtain ⟨queued, hqueued, hreplies⟩ := h
  exact ⟨queued, hqueued, hreplies.trans (List.nil_sublist _)⟩

theorem repliesTo_handleFrame (s : LinkSession) (frame : McLinkFrame) :
    RepliesTo echo (requests echo [frame]) s (handleFrame s frame).2 := by
  unfold handleFrame
  split_ifs with _ _ _ hprobe hping
  · exact (repliesTo_handleHello s frame).of_nil
  · exact (repliesTo_handleReset s frame).of_nil
  · exact (repliesTo_handleDataC2m s frame).of_nil
  · have hqueue := @repliesTo_queueControlFrame echo s mcLinkRateProbeAck frame.seq frame.ack
      frame.payload
    cases echo with
    | rateProbe =>
      have hrequest : requests .rateProbe [frame] = [(frame.seq, frame.ack, frame.payload)] :=
        List.filterMap_cons_some (if_pos hprobe)
      rw [hrequest]
      exact hqueue
    | ping => exact hqueue.of_nil
  · have hqueue := @repliesTo_queueControlFrame echo s mcLinkPong frame.seq frame.ack
      frame.payload
    cases echo with
    | rateProbe => exact hqueue.of_nil
    | ping =>
      have hrequest : requests .ping [frame] = [(frame.seq, frame.ack, frame.payload)] :=
        List.filterMap_cons_some (if_pos hping)
      rw [hrequest]
      exact hqueue
  · exact (repliesTo_queueError s _ _).of_nil

def LinkEvent.handled : LinkEvent → List McLinkFrame
  | .frame received => [received]
  | _ => []

theorem repliesTo_eventStep (s : LinkSession) (event : LinkEvent) :
    RepliesTo echo (requests echo event.handled) s (eventStep s event) := by
  cases event with
  | parsed parser => exact repliesTo_of_history rfl
  | frame frame => exact repliesTo_handleFrame s frame
  | resetAfterError code detail =>
    have herror := @repliesTo_queueError echo s code detail
    show RepliesTo echo [] s (mcLinkSessionResetAfterError s code detail).2
    unfold mcLinkSessionResetAfterError
    dsimp only
    split_ifs
    · refine herror.trans ((repliesTo_queueReady _).congr ?_)
      exact (congrArg SessionHistory.queuedControl
        (history_resetLinkStatePreservingControlTx _)).symm
    · exact herror
  | queueServerTx serverTx =>
    apply repliesTo_of_history
    rw [eventStep, sessionStep]
    rcases mcLinkSessionQueueServerTx_cases s serverTx with
      hsent | hsent | ⟨_, payload, _, _, _, _, _, _, hsent⟩
    · rw [hsent]
    · rw [hsent]
      rfl
    · rw [hsent]
      rfl
  | creditConsumed consumedLen => exact repliesTo_queueAckC2m s 0
  | dropQueuedData =>
    have hhistory := history_mcLinkSessionDropQueuedData s
    exact repliesTo_of_history (congrArg SessionHistory.queuedControl hhistory)
  | readTx maxLen =>
    have hhistory := history_mcLinkSessionReadTx s maxLen
    exact repliesTo_of_history (congrArg SessionHistory.queuedControl hhistory)
  | readRx maxLen => exact repliesTo_of_history rfl

def eventOutput (s : LinkSession) : LinkEvent → List UInt8
  | .readTx maxLen => (mcLinkSessionReadTx s maxLen).1
  | _ => []

/-- All that a run puts on the line. -/
def eventsOutput (s : LinkSession) : List LinkEvent → List UInt8
  | [] => []
  | event :: events => eventOutput s event ++ eventsOutput (eventStep s event) events

theorem repliesTo_eventRun (s : LinkSession) (events : List LinkEvent) :
    RepliesTo echo (requests echo (events.flatMap LinkEvent.handled)) s (eventRun s events) := by
  induction events generalizing s with
  | nil => exact repliesTo_of_history rfl
  | cons event events ih =>
    rw [List.flatMap_cons, requests, List.filterMap_append]
    exact (repliesTo_eventStep s event).trans (ih _)

theorem txRel_eventStep {s : LinkSession} {m : TxMux} (h : TxRel s m) (event : LinkEvent) :
    ∃ m', TxRel (eventStep s event) m' ∧ m'.output = m.output ++ eventOutput s event := by
  have hsilent : ∀ t, TxSilent s t → ∃ m', TxRel t m' ∧ m'.output = m.output ++ [] := by
    intro t ht
    obtain ⟨m', hm', hsilent⟩ := ht m h
    refine ⟨m', hm', ?_⟩
    rw [Mux.output, Mux.output, hsilent.sent, hsilent.current, List.append_nil]
  cases event with
  | parsed parser => exact hsilent _ (sameTx_withParser s parser).silent
  | frame frame => exact hsilent _ (txSilent_handleFrame s frame)
  | resetAfterError code detail => exact h.sessionStep (.resetAfterError code detail)
  | queueServerTx serverTx => exact h.sessionStep (.queueServerTx serverTx)
  | creditConsumed consumedLen => exact h.sessionStep (.creditConsumed consumedLen)
  | dropQueuedData => exact h.sessionStep .dropQueuedData
  | readTx maxLen => exact h.sessionStep (.readTx maxLen)
  | readRx maxLen => exact h.sessionStep (.readRx maxLen)

theorem txRel_eventRun {s : LinkSession} {m : TxMux} (h : TxRel s m) (events : List LinkEvent) :
    ∃ m', TxRel (eventRun s events) m' ∧ m'.output = m.output ++ eventsOutput s events := by
  induction events generalizing s m with
  | nil => exact ⟨m, h, (List.append_nil _).symm⟩
  | cons event events ih =>
    obtain ⟨m', hm', houtput⟩ := txRel_eventStep h event
    obtain ⟨m'', hm'', houtput'⟩ := ih hm'
    refine ⟨m'', hm'', ?_⟩
    rw [houtput', houtput, eventsOutput, List.append_assoc]

theorem linkFrames_flatten {frames : List (List UInt8)}
    (h : ∀ frame ∈ frames, IsFrame mcLinkDelimiter frame) {rest : List UInt8}
    (hrest : mcLinkDelimiter ∉ rest) :
    linkFrames (frames.flatten ++ rest) = frames.flatMap linkFrames := by
  -- In whole frames, and with an unfinished one behind them, each frame counts alone.
  induction frames with
  | nil => exact linkFrames_of_notMem hrest
  | cons frame frames ih =>
    have hframe := h frame List.mem_cons_self
    have hone := linkFrames_frame hframe []
    rw [List.append_nil] at hone
    rw [List.flatten_cons, List.append_assoc, linkFrames_frame hframe,
      ih fun f hf => h f (List.mem_cons_of_mem _ hf), List.flatMap_cons, hone,
      linkFrames_of_notMem List.not_mem_nil, List.append_nil]

theorem replies_data {frame : List UInt8} (h : TxFrame .data frame) :
    (linkFrames frame).filterMap (repeated echo.reply) = [] := by
  obtain ⟨seq, ack, payload, hencode⟩ := h
  obtain ⟨hlen, rfl⟩ := mcLinkEncode_eq_some hencode
  have hother : mcLinkDataM2c ≠ echo.reply := by cases echo <;> decide
  rw [linkFrames_mcLinkFrameBytes hlen]
  exact List.filterMap_cons_none (if_neg hother)

theorem replies_line {line : List (TxQueue × List UInt8)} (h : ∀ c ∈ line, TxFrame c.1 c.2) :
    replies echo (line.map Prod.snd) = replies echo (sentFrom line .control) := by
  induction line with
  | nil => rfl
  | cons c line ih =>
    have hline := ih fun c' hc' => h c' (List.mem_cons_of_mem _ hc')
    have hframe := h c List.mem_cons_self
    obtain ⟨q, frame⟩ := c
    rw [replies, sentFrom] at hline ⊢
    cases q with
    | data =>
      rw [List.filter_cons_of_neg (by simp), List.map_cons, List.flatMap_cons, hline,
        replies_data hframe, List.nil_append]
    | control =>
      rw [List.filter_cons_of_pos (by simp), List.map_cons, List.map_cons, replies,
        List.flatMap_cons, List.flatMap_cons, hline]
      rfl

theorem linkFrames_output {s : LinkSession} {m : TxMux} (h : TxRel s m) :
    linkFrames m.output = (m.sent.map Prod.snd).flatMap linkFrames := by
  have hframes : ∀ frame ∈ m.sent.map Prod.snd, IsFrame mcLinkDelimiter frame := by
    intro frame hmem
    obtain ⟨c, hc, rfl⟩ := List.mem_map.mp hmem
    exact (h.sound.sent c hc).isLinkFrame.isFrame
  have hpart : mcLinkDelimiter ∉ (m.current.elim [] fun c => c.2.1) := by
    cases hcurrent : m.current with
    | none => exact List.not_mem_nil
    | some c =>
      obtain ⟨q, part, tail⟩ := c
      have hframe := (h.sound.current hcurrent).isLinkFrame.isFrame
      have hpos := List.length_pos_of_ne_nil (h.tail_ne_nil q part tail hcurrent)
      have hshort : part.length < (part ++ tail).length := by
        rw [List.length_append]
        exact Nat.lt_add_of_pos_right hpos
      have hnotMem := hframe.notMem_take hshort
      rw [List.take_left] at hnotMem
      exact hnotMem
  rw [Mux.output, linkFrames_flatten hframes hpart]

theorem replies_output {s : LinkSession} {m : TxMux} (h : TxRel s m) :
    (linkFrames m.output).filterMap (repeated echo.reply) =
      replies echo (sentFrom m.sent .control) := by
  rw [linkFrames_output h, List.filterMap_flatMap]
  exact replies_line h.sound.sent

/-- What the firmware sends as answers to RATE_PROBE or to PING repeats frames of that type that it
handled, each at most once and in their order, over any run with any resets and drops. -/
theorem eventsOutput_replies (rx : Ringbuf UInt8) (events : List LinkEvent) (echo : Echo) :
    ((linkFrames (eventsOutput (mcLinkSessionInit rx) events)).filterMap
      (repeated echo.reply)).Sublist (requests echo (events.flatMap LinkEvent.handled)) := by
  obtain ⟨m, hm, houtput⟩ := txRel_eventRun (txRel_init rx) events
  have hout : m.output = eventsOutput (mcLinkSessionInit rx) events := houtput
  obtain ⟨queued, hqueued, hreplies⟩ :=
    @repliesTo_eventRun echo (mcLinkSessionInit rx) events
  have hall : (eventRun (mcLinkSessionInit rx) events).history.queued .control = queued := hqueued
  rw [← hout, replies_output hm]
  apply List.Sublist.trans _ hreplies
  rw [← hall]
  exact (hm.sentFrom_sublist .control).flatMap _

section Calibration
open StarrySky.Bridge

theorem framesRead_eq (port : CalibrationPort) (reads : ℕ) :
    framesRead port reads =
      (linkFrames (bytesRead port reads)).map Bridge.Link.Frame.ofMcLinkFrame := by
  have hnew : DecoderHolds Bridge.Link.Decoder.new [] := .buffered rfl rfl (by decide)
  have hevents := (feed_spec (bytesRead port reads) hnew List.not_mem_nil).1
  rw [List.nil_append] at hevents
  rw [framesRead, ← hevents]
  apply List.filterMap_congr
  intro event _
  cases event with
  | frame frame => rfl
  | error error => rfl

/-- An answer that the bridge read comes from a probe that the firmware handled. -/
theorem exists_request_of_answers {rx : Ringbuf UInt8} {events : List LinkEvent}
    {before : List UInt8} {port : CalibrationPort} {reads : ℕ} (hbefore : linkTail before = [])
    (hwire : before ++ bytesRead port reads <+: eventsOutput (mcLinkSessionInit rx) events)
    {nonce : UInt16} {payload : List UInt8}
    (h : ∃ frame ∈ framesRead port reads, Answers nonce payload frame) :
    ∃ frame ∈ events.flatMap LinkEvent.handled,
      frame.type = mcLinkRateProbe ∧ frame.seq = nonce ∧ frame.payload = payload := by
  obtain ⟨answer, hmem, htype, hseq, hpayload⟩ := h
  rw [framesRead_eq] at hmem
  obtain ⟨frame, hframe, rfl⟩ := List.mem_map.mp hmem
  have hreply : repeated Echo.rateProbe.reply frame =
      some (frame.seq, frame.ack, frame.payload) := if_pos (eq_toU8_of_fromU8 htype)
  have hout : frame ∈ linkFrames (eventsOutput (mcLinkSessionInit rx) events) := by
    obtain ⟨later, hlater⟩ := hwire
    -- the bytes before them end with a frame, so what is read is decoded as it was sent
    rw [← hlater, linkFrames_append, linkFrames_append before, hbefore, List.nil_append]
    exact List.mem_append_left _ (List.mem_append_right _ hframe)
  have hreplied := (eventsOutput_replies rx events .rateProbe).subset
    (List.mem_filterMap.mpr ⟨frame, hout, hreply⟩)
  obtain ⟨request, hrequest, hrepeated⟩ := List.mem_filterMap.mp hreplied
  rw [repeated] at hrepeated
  split_ifs at hrepeated with hprobe
  obtain ⟨hseq', _, hpayload'⟩ := Prod.mk.inj (Option.some.inj hrepeated) |>.imp_right Prod.mk.inj
  exact ⟨request, hrequest, hprobe, hseq'.trans hseq, hpayload'.trans hpayload⟩

/-- On a line that brings the bridge what the firmware sends, from the end of a frame on, a
calibration that succeeds counts a probe as answered only if the firmware got it whole, with that
number and for that profile. It got every probe of the supported profiles below the best. -/
theorem calibrateRateWithSleep_arrived {rx : Ringbuf UInt8} {events : List LinkEvent}
    {before : List UInt8} {port : CalibrationPort} {mask : UInt16} {controller : RateController}
    {state : Calibration} (h : calibrateRateWithSleep port mask = .ok (controller, state))
    (hbefore : linkTail before = [])
    (hwire : before ++ bytesRead port state.reads <+:
      eventsOutput (mcLinkSessionInit rx) events) :
    (∀ (i : ℕ) record, state.records[i]? = some record → record.answered = true →
      ∃ frame ∈ events.flatMap LinkEvent.handled, frame.type = mcLinkRateProbe ∧
        frame.seq = UInt16.ofNat i ∧
        frame.payload = rateProbePayload record.profile (UInt16.ofNat i)) ∧
    ∀ profile ∈ rateProfiles, Supports mask profile.id → profile.id < controller.highestStable →
      ∀ k < rateProbeAttempts, ∃ nonce, ∃ frame ∈ events.flatMap LinkEvent.handled,
        nonce = UInt16.ofNat (rateWarmupAttempts +
          rateProbeAttempts * (supportedBelow mask profile.id).length + k) ∧
        frame.type = mcLinkRateProbe ∧ frame.seq = nonce ∧
        frame.payload = rateProbePayload profile nonce := by
  obtain ⟨hstate, hfew, hagrees⟩ := calibrateRateWithSleep_ok h
  have hcalibrated := hagrees _ (agreesOn_recordedProbe hstate hfew)
  refine ⟨fun i record hrecord hanswered => ?_, fun profile hmem hsupports hbelow k hk => ?_⟩
  · have hi : i < state.records.length := (List.getElem?_eq_some_iff.mp hrecord).1
    have hnonce : (UInt16.ofNat i).toNat = i :=
      UInt16.toNat_ofNat_of_lt' (lt_of_lt_of_le hi (hfew.trans (by decide)))
    rw [← hnonce] at hrecord
    exact exists_request_of_answers hbefore hwire (hstate.answer hrecord hanswered)
  · have hpassed := (calibrateRate_spec hcalibrated).2 profile hmem hsupports hbelow k hk
    obtain ⟨record, hrecord, rfl, hanswered⟩ := recordedProbe_true hpassed
    obtain ⟨frame, hframe, htype, hseq, hpayload⟩ :=
      exists_request_of_answers hbefore hwire (hstate.answer hrecord hanswered)
    exact ⟨_, frame, hframe, rfl, htype, hseq, hpayload⟩

/-- The profile of each probe that the two slowest profiles need. -/
def probedProfile (nonce : ℕ) : RateProfile :=
  if nonce < 5 then slowestProfile else { id := 1, interByteSleep := 7000 }

def probeFrame (nonce : ℕ) : McLinkFrame where
  type := mcLinkRateProbe
  flags := 0
  seq := UInt16.ofNat nonce
  ack := 0
  payload := rateProbePayload (probedProfile nonce) (UInt16.ofNat nonce)

/-- The firmware gets a HELLO, then one probe after the other, and sends each answer at once. -/
def echoEvents : List LinkEvent :=
  [.frame
    { type := mcLinkHello, flags := 0, seq := 0, ack := 0
      payload := [0xf1, 0x01, 0x00, 0x02, 0xff, 0x03] },
    .readTx 512] ++
  (List.range 8).flatMap fun nonce => [.frame (probeFrame nonce), .readTx 512]

/-- What the bridge has read before it calibrates. -/
def helloOutput : List UInt8 := eventsOutput (mcLinkSessionInit (.init 8192)) (echoEvents.take 2)

def firmwarePort : CalibrationPort where
  writeFramePaced := fun _ => .ok ()
  turnsInTime := fun _ => 1
  read := fun read => .bytes (mcLinkFrameBytes mcLinkRateProbeAck (UInt16.ofNat read) 0
    (rateProbePayload (probedProfile read) (UInt16.ofNat read)))

theorem calibrateRateWithSleep_arrived_echo :
    ∃ controller state, calibrateRateWithSleep firmwarePort 3 = .ok (controller, state) ∧
      controller.highestStable = 1 ∧
      ∀ (i : ℕ) record, state.records[i]? = some record → record.answered = true →
        ∃ frame ∈ echoEvents.flatMap LinkEvent.handled, frame.type = mcLinkRateProbe ∧
          frame.seq = UInt16.ofNat i ∧
          frame.payload = rateProbePayload record.profile (UInt16.ofNat i) := by
  have hresult : (calibrateRateWithSleep firmwarePort 3).toOption.map
      (fun result => (result.1.highestStable, result.2.reads)) = some (1, 8) := by decide +kernel
  have hbefore : linkTail helloOutput = [] := by decide +kernel
  have hwire : helloOutput ++ bytesRead firmwarePort 8 <+:
      eventsOutput (mcLinkSessionInit (.init 8192)) echoEvents := by decide +kernel
  rcases h : calibrateRateWithSleep firmwarePort 3 with error | ⟨controller, state⟩
  · rw [h] at hresult
    cases hresult
  · rw [h] at hresult
    obtain ⟨hstable, hreads⟩ := Prod.mk.inj (Option.some.inj hresult)
    rw [← hreads] at hwire
    exact ⟨controller, state, rfl, hstable, (calibrateRateWithSleep_arrived h hbefore hwire).1⟩

end Calibration

end StarrySky.System
