import StarrySky.System.C2mLink

/-! Flow control of the client's bytes: how much the main loop lets the receive ring
hold, and so which credits the bridge can be given. -/

namespace StarrySky.System
open StarrySky.Base StarrySky.Link StarrySky.Firmware
open StarrySky.Bridge (IoError C2mSender sendNextFrame sequenceExhausted)

/-- The most the receive ring ever holds. -/
abbrev rxRingBound : ℕ := 1023

/-- The bridge can read the frame, and an acknowledgement leaves what the ring has beyond
its bound. -/
def CreditOk (frame : List UInt8) : Prop :=
  IsAnswer frame ∧ ∀ answer, ackC2mOf frame = some answer → mcRxRingCap - rxRingBound ≤ answer.2

/-- The acknowledgements queued so far leave credit, and the ring has never overflowed. -/
structure FlowOk (s : LinkSession) : Prop where
  cap : s.rx.cap = mcRxRingCap
  credit : ∀ frame ∈ s.history.queuedControl, CreditOk frame
  raised : ∀ e ∈ s.history.raised, e.1 ≠ mcLinkErrRxOverflow

theorem FlowOk.congr {s t : LinkSession} (h : FlowOk s) (hcap : t.rx.cap = s.rx.cap)
    (hhistory : t.history = s.history) : FlowOk t :=
  ⟨hcap.trans h.cap, hhistory ▸ h.credit, hhistory ▸ h.raised⟩

theorem creditOk_of_ne {payload : List UInt8} (h : payload.length ≤ mcLinkMaxPayload)
    {type : UInt8} (htype : type ≠ mcLinkAckC2m) (seq ack : UInt16) :
    CreditOk (mcLinkFrameBytes type seq ack payload) := by
  refine ⟨⟨type, seq, ack, payload, h, fun heq => absurd heq htype, rfl⟩, fun answer hanswer => ?_⟩
  rw [ackC2mOf_of_ne h htype] at hanswer
  contradiction

theorem FlowOk.enqueueControl {s : LinkSession} (h : FlowOk s) {frame : List UInt8}
    (hframe : CreditOk frame) : FlowOk (s.enqueue .control frame) := by
  refine ⟨h.cap, fun f hf => ?_, h.raised⟩
  rcases List.mem_append.mp hf with hf | hf
  · exact h.credit f hf
  · rw [List.mem_singleton.mp hf]
    exact hframe

theorem FlowOk.queueControlFrame {s : LinkSession} (h : FlowOk s) {type : UInt8}
    (htype : type ≠ mcLinkAckC2m) (seq ack : UInt16) (payload : List UInt8) :
    FlowOk (queueControlFrame s type seq ack payload).2 := by
  rw [Firmware.queueControlFrame, queueFrame_eq]
  split_ifs with hroom
  · exact h.enqueueControl (creditOk_of_ne hroom.1 htype seq ack)
  · exact h.congr rfl rfl

theorem FlowOk.queueReady {s : LinkSession} (h : FlowOk s) : FlowOk (queueReady s).2 :=
  h.queueControlFrame (by decide) _ _ _

theorem FlowOk.queueError {s : LinkSession} (h : FlowOk s) {code : UInt8}
    (hcode : code ≠ mcLinkErrRxOverflow) (detail : UInt8) : FlowOk (queueError s code detail).2 := by
  refine FlowOk.queueControlFrame (⟨h.cap, h.credit, fun e he => ?_⟩ : FlowOk (s.raise code detail))
    (by decide) _ _ _
  rcases List.mem_append.mp he with he | he
  · exact h.raised e he
  · rw [List.mem_singleton.mp he]
    exact hcode

theorem FlowOk.queueAckC2m {s : LinkSession} (h : FlowOk s) (hlen : s.rx.len ≤ rxRingBound)
    (ack : UInt16) : FlowOk (queueAckC2m s ack).2 := by
  rcases queueAckC2m_cases s ack with ⟨_, hqueue⟩ | hqueue
  · rw [hqueue]
    have hframe : CreditOk (ackFrame s ack) := by
      refine ⟨⟨_, _, _, _, by simp [mcLinkMaxPayload], fun _ => ⟨_, rfl⟩, rfl⟩,
        fun answer hanswer => ?_⟩
      rw [ackC2mOf_ackFrame (by simp [h.cap, mcRxRingCap])] at hanswer
      rw [← Option.some.inj hanswer]
      show mcRxRingCap - rxRingBound ≤ s.rx.cap - s.rx.len
      rw [h.cap]
      exact Nat.sub_le_sub_left hlen _
    exact (h.enqueueControl hframe).congr rfl rfl
  · rw [hqueue]
    exact h.congr rfl rfl

theorem FlowOk.linkReset {s t : LinkSession} (h : FlowOk s) (hreset : LinkReset s t)
    (hhistory : t.history = s.history) : FlowOk t :=
  h.congr (by rw [hreset.rx, Ringbuf.cap_drop]) hhistory

theorem FlowOk.handleHello {s : LinkSession} (h : FlowOk s) (frame : McLinkFrame) :
    FlowOk (handleHello s frame).2 := by
  unfold Firmware.handleHello
  split
  · dsimp only
    split_ifs
    · exact h.queueError (by decide) _
    · refine FlowOk.queueReady ?_
      exact (h.linkReset (linkReset_resetLinkState s) (history_resetLinkState s)).congr rfl rfl
  · exact h.queueError (by decide) _

theorem FlowOk.handleReset {s : LinkSession} (h : FlowOk s) (frame : McLinkFrame) :
    FlowOk (handleReset s frame).2 := by
  have hreset : FlowOk { resetLinkState s with resetRequested := true } :=
    (h.linkReset (linkReset_resetLinkState s) (history_resetLinkState s)).congr rfl rfl
  have hack := hreset.queueControlFrame (show mcLinkResetAck ≠ mcLinkAckC2m by decide)
    frame.seq frame.ack []
  unfold Firmware.handleReset
  dsimp only
  split_ifs
  · exact hack.queueReady
  · exact hack

theorem FlowOk.handleDataC2m {s : LinkSession} (h : FlowOk s) {frame : McLinkFrame}
    (hlen : s.rx.len + frame.payload.length ≤ rxRingBound) :
    FlowOk (handleDataC2m s frame).2 := by
  have hspace : frame.payload.length ≤ s.rx.free := by
    have := s.rx.len_add_free
    rw [h.cap] at this
    simp only [rxRingBound, mcRxRingCap] at hlen this
    omega
  have hwrite := Ringbuf.write_of_le hspace
  unfold Firmware.handleDataC2m
  dsimp only
  rw [if_neg (Nat.not_lt.mpr hspace), if_neg (not_not.mpr hwrite.1)]
  split_ifs
  · exact h.queueError (by decide) _
  · refine FlowOk.queueAckC2m ?_ ?_ _
    · exact ⟨h.cap, h.credit, h.raised⟩
    · exact (Nat.le_add_right _ _).trans hlen
  · exact h.queueError (by decide) _
  · exact h.queueError (by decide) _
  · refine FlowOk.queueAckC2m ?_ ?_ _
    · exact ⟨h.cap, h.credit, h.raised⟩
    · show (s.rx.write frame.payload).2.items.length ≤ rxRingBound
      rw [hwrite.2, List.length_append]
      exact hlen

theorem FlowOk.handleFrame {s : LinkSession} (h : FlowOk s) {frame : McLinkFrame}
    (hlen : s.rx.len + frame.payload.length ≤ rxRingBound) : FlowOk (handleFrame s frame).2 := by
  unfold Firmware.handleFrame
  split_ifs
  · exact h.handleHello frame
  · exact h.handleReset frame
  · exact h.handleDataC2m hlen
  · exact h.queueControlFrame (by decide) _ _ _
  · exact h.queueControlFrame (by decide) _ _ _
  · exact h.queueError (by decide) _

/-- Received bytes that the server has not taken: payload in the ring and what the parser
holds. -/
def held (s : LinkSession) : ℕ := s.rx.len + s.parser.buf.length

theorem held_sameLink {s t : LinkSession} (h : SameLink s t) : held t = held s := by
  rw [held, h.rx, h.parser, held]

theorem held_linkReset {s t : LinkSession} (h : LinkReset s t) : held t = 0 := by
  rw [held, h.rx, h.parser]
  simp [Ringbuf.len, mcLinkParserInit]

theorem len_write_le (rb : Ringbuf UInt8) (src : List UInt8) :
    (rb.write src).2.len ≤ rb.len + src.length := by
  show (rb.items ++ src.take rb.free).length ≤ rb.items.length + src.length
  rw [List.length_append]
  exact Nat.add_le_add_left (List.length_take_le' _ _) _

theorem held_handleHello_le (s : LinkSession) (frame : McLinkFrame) :
    held (handleHello s frame).2 ≤ held s := by
  unfold handleHello
  split
  · dsimp only
    split_ifs
    · exact (held_sameLink (sameLink_queueError s _ _)).le
    · rw [held_sameLink (sameLink_queueReady _)]
      show held (resetLinkState s) ≤ held s
      rw [held_linkReset (linkReset_resetLinkState s)]
      exact Nat.zero_le _
  · exact (held_sameLink (sameLink_queueError s _ _)).le

theorem held_handleReset (s : LinkSession) (frame : McLinkFrame) :
    held (handleReset s frame).2 = 0 := by
  have hreset : held { resetLinkState s with resetRequested := true } = 0 := by
    show held (resetLinkState s) = 0
    exact held_linkReset (linkReset_resetLinkState s)
  unfold handleReset
  dsimp only
  split_ifs
  · rw [held_sameLink (sameLink_queueReady _), held_sameLink (sameLink_queueControlFrame _ _ _ _ _),
      hreset]
  · rw [held_sameLink (sameLink_queueControlFrame _ _ _ _ _), hreset]

theorem held_handleDataC2m_le (s : LinkSession) (frame : McLinkFrame) :
    held (handleDataC2m s frame).2 ≤ held s + frame.payload.length := by
  have hwrite : ∀ t : LinkSession, t.rx = (s.rx.write frame.payload).2 → t.parser = s.parser →
      held t ≤ held s + frame.payload.length := by
    intro t hrx hparser
    have := len_write_le s.rx frame.payload
    rw [held, held, hrx, hparser]
    omega
  unfold handleDataC2m
  dsimp only
  split_ifs
  · exact (held_sameLink (sameLink_queueError s _ _)).le.trans (Nat.le_add_right _ _)
  · exact (held_sameLink (sameLink_queueAckC2m _ _)).le.trans (Nat.le_add_right _ _)
  · exact (held_sameLink (sameLink_queueError s _ _)).le.trans (Nat.le_add_right _ _)
  · exact (held_sameLink (sameLink_queueError s _ _)).le.trans (Nat.le_add_right _ _)
  · exact (held_sameLink (sameLink_queueError s _ _)).le.trans (Nat.le_add_right _ _)
  · exact (held_sameLink (sameLink_queueError _ _ _)).le.trans (hwrite _ rfl rfl)
  · exact (held_sameLink (sameLink_queueAckC2m _ _)).le.trans (hwrite _ rfl rfl)

theorem held_handleFrame_le (s : LinkSession) (frame : McLinkFrame) :
    held (handleFrame s frame).2 ≤ held s + frame.payload.length := by
  unfold handleFrame
  split_ifs
  · exact (held_handleHello_le s frame).trans (Nat.le_add_right _ _)
  · exact (held_handleReset s frame).le.trans (Nat.zero_le _)
  · exact held_handleDataC2m_le s frame
  · exact (held_sameLink (sameLink_queueControlFrame s _ _ _ _)).le.trans (Nat.le_add_right _ _)
  · exact (held_sameLink (sameLink_queueControlFrame s _ _ _ _)).le.trans (Nat.le_add_right _ _)
  · exact (held_sameLink (sameLink_queueError s _ _)).le.trans (Nat.le_add_right _ _)

theorem flowOk_receiveFrames {s : LinkSession} {found : Option McLinkFrame} (h : FlowOk s)
    (hbuf : BufBound found s.parser) (hheld : held s + parsedLen found ≤ rxRingBound) :
    FlowOk (receiveFrames s found).2 ∧
      held (receiveFrames s found).2 ≤ held s + parsedLen found ∧
      ((receiveFrames s found).1 = true →
        (receiveFrames s found).2.parser.buf.length < mcLinkMaxFrameLen) := by
  induction s, found using receiveFrames.induct with
  | case1 s =>
    rw [receiveFrames]
    exact ⟨h, Nat.le_refl _, fun _ => hbuf.2 rfl⟩
  | case2 s frame handled hok parsed ih =>
    rw [receiveFrames, if_pos hok]
    have hlen := held_handleFrame_le s frame
    have hhandled : FlowOk handled.2 := h.handleFrame (by
      simp only [held, parsedLen_some] at hheld
      omega)
    have hcap : handled.2.parser.buf.length ≤ mcLinkMaxFrameLen :=
      (length_buf_handleFrame_le s frame).trans hbuf.1
    have hparsed := parsedLen_mcLinkParserFeed handled.2.parser []
    have hnext : held { handled.2 with parser := parsed.2 } + parsedLen parsed.1 ≤
        held s + parsedLen (some frame) := by
      simp only [held, handled, parsed, parsedLen_some, List.length_nil] at hparsed hlen ⊢
      omega
    obtain ⟨hflow, hle, hshort⟩ := ih (hhandled.congr rfl rfl)
      (bufBound_mcLinkParserFeed hcap []) (hnext.trans hheld)
    exact ⟨hflow, hle.trans hnext, hshort⟩
  | case3 s frame handled hok =>
    rw [receiveFrames, if_neg hok]
    have hlen := held_handleFrame_le s frame
    refine ⟨h.handleFrame ?_, ?_, fun htrue => Bool.noConfusion htrue⟩
    · simp only [held, parsedLen_some] at hheld
      omega
    · simp only [parsedLen_some]
      exact hlen.trans (Nat.add_le_add_left (Nat.le_add_right _ _) _)

theorem flowOk_mcLinkSessionReceiveBytes {s : LinkSession} (h : FlowOk s)
    (hbuf : s.parser.buf.length ≤ mcLinkMaxFrameLen) {src : List UInt8}
    (hheld : held s + src.length ≤ rxRingBound) :
    FlowOk (mcLinkSessionReceiveBytes s src).2 ∧
      held (mcLinkSessionReceiveBytes s src).2 ≤ held s + src.length ∧
      ((mcLinkSessionReceiveBytes s src).1 = true →
        (mcLinkSessionReceiveBytes s src).2.parser.buf.length < mcLinkMaxFrameLen) := by
  have hparsed := parsedLen_mcLinkParserFeed s.parser src
  have hstart : held { s with parser := (mcLinkParserFeed s.parser src).2 } +
      parsedLen (mcLinkParserFeed s.parser src).1 ≤ held s + src.length := by
    simp only [held]
    omega
  obtain ⟨hflow, hle, hshort⟩ := flowOk_receiveFrames
    (h.congr rfl rfl : FlowOk { s with parser := (mcLinkParserFeed s.parser src).2 })
    (bufBound_mcLinkParserFeed hbuf src) (hstart.trans hheld)
  exact ⟨hflow, hle.trans hstart, hshort⟩

universe u
variable {σ : Type u}

/-- Between the pumps: at most `bound` bytes are held, and the parser waits for more. -/
structure MainFlow (m : Main σ) (bound : ℕ) : Prop where
  flow : FlowOk m.session
  short : m.session.parser.buf.length < mcLinkMaxFrameLen
  held : held m.session ≤ bound

theorem MainFlow.rx_len_le {m : Main σ} {bound : ℕ} (h : MainFlow m bound) :
    m.session.rx.len ≤ bound :=
  (Nat.le_add_right _ _).trans h.held

theorem MainFlow.mono {m : Main σ} {bound bound' : ℕ} (h : MainFlow m bound)
    (hle : bound ≤ bound') : MainFlow m bound' :=
  ⟨h.flow, h.short, h.held.trans hle⟩

theorem MainFlow.session {m m' : Main σ} {bound : ℕ} (h : MainFlow m bound)
    (hflow : FlowOk m'.session) (hsame : SameLink m.session m'.session) : MainFlow m' bound :=
  ⟨hflow, by rw [hsame.parser]; exact h.short, (held_sameLink hsame).le.trans h.held⟩

theorem MainFlow.congr {m m' : Main σ} {bound : ℕ} (h : MainFlow m bound)
    (hsession : m'.session = m.session) : MainFlow m' bound :=
  ⟨hsession ▸ h.flow, hsession ▸ h.short, hsession ▸ h.held⟩

theorem history_mcLinkSessionDropQueuedData (s : LinkSession) :
    (mcLinkSessionDropQueuedData s).history = s.history := by
  unfold mcLinkSessionDropQueuedData clearActiveTx
  dsimp only
  split_ifs <;> rfl

theorem MainFlow.dropStaleLinkTxData {m : Main σ} {bound : ℕ} (h : MainFlow m bound) :
    MainFlow (dropStaleLinkTxData m) bound := by
  have hsame := sameLink_mcLinkSessionDropQueuedData m.session
  have hflow : FlowOk (mcLinkSessionDropQueuedData m.session) :=
    h.flow.congr (congrArg Ringbuf.cap hsame.rx) (history_mcLinkSessionDropQueuedData m.session)
  unfold Firmware.dropStaleLinkTxData
  dsimp only
  split_ifs
  · exact h.session hflow hsame
  · exact h.session hflow hsame

theorem mainFlow_resetConnection (ops : McServerOps σ) {m : Main σ}
    (hcredit : ∀ frame ∈ m.session.history.queuedControl, CreditOk frame)
    (hraised : ∀ e ∈ m.session.history.raised, e.1 ≠ mcLinkErrRxOverflow)
    (hshort : m.session.parser.buf.length < mcLinkMaxFrameLen) :
    MainFlow (resetConnection ops m) m.session.parser.buf.length := by
  -- A new ring is empty, whatever the old one held.
  refine MainFlow.dropStaleLinkTxData ⟨⟨rfl, hcredit, hraised⟩, hshort, ?_⟩
  exact (Nat.zero_add _).le

theorem mainFlow_mainBoot (ops : McServerOps σ) : MainFlow (mainBoot ops) 511 :=
  (mainFlow_resetConnection ops (by simp [mcLinkSessionInit]) (by simp [mcLinkSessionInit])
    (by simp [mcLinkSessionInit, mcLinkParserInit])).mono (Nat.zero_le _)

theorem MainFlow.pumpLinkRx {m : Main σ} (h : MainFlow m 511) (ops : McServerOps σ)
    {buf : List UInt8} (hbuf : buf.length ≤ mcTickBudgetRxBytes) :
    MainFlow (pumpLinkRx ops m buf) rxRingBound := by
  have hbound : System.held m.session + buf.length ≤ rxRingBound := Nat.add_le_add h.held hbuf
  obtain ⟨hflow, hle, hshort⟩ :=
    flowOk_mcLinkSessionReceiveBytes h.flow (Nat.le_of_lt h.short) hbound
  have hreceived : MainFlow (receiveLink ops m buf) rxRingBound := by
    unfold receiveLink
    dsimp only
    split_ifs with hok
    · exact ⟨hflow, hshort hok, hle.trans hbound⟩
    · exact (mainFlow_resetConnection ops hflow.credit hflow.raised (by
        simp [mcLinkParserInit])).mono (Nat.zero_le _)
  unfold Firmware.pumpLinkRx
  split_ifs
  · exact h.mono (by decide)
  · unfold takeLinkReset
    dsimp only
    split_ifs
    · refine MainFlow.mono (mainFlow_resetConnection ops ?_ ?_ ?_) ?_
      · exact hreceived.flow.credit
      · exact hreceived.flow.raised
      · exact hreceived.short
      · exact (Nat.le_add_left _ _).trans hreceived.held
    · exact ⟨hreceived.flow.congr rfl rfl, hreceived.short, hreceived.held⟩

theorem MainFlow.pumpServerTxReset {m : Main σ} {bound : ℕ} (h : MainFlow m bound)
    (ops : McServerOps σ) : MainFlow (pumpServerTxReset ops m) bound := by
  unfold Firmware.pumpServerTxReset
  dsimp only
  split_ifs
  · exact MainFlow.dropStaleLinkTxData (h.congr rfl)
  · exact h.congr rfl

theorem MainFlow.pumpServerTick {m : Main σ} {bound : ℕ} (h : MainFlow m bound)
    (ops : McServerOps σ) (nowTicks : UInt32) : MainFlow (pumpServerTick ops m nowTicks) bound := by
  refine MainFlow.pumpServerTxReset ?_ ops
  exact h.congr rfl

theorem flowOk_mcLinkSessionResetAfterError {m : Main σ} {bound : ℕ} (h : MainFlow m bound) :
    FlowOk (mcLinkSessionResetAfterError m.session mcLinkErrProtocolState 0).2 ∧
      (mcLinkSessionResetAfterError m.session mcLinkErrProtocolState 0).2.parser.buf.length <
        mcLinkMaxFrameLen := by
  have herror := h.flow.queueError (show mcLinkErrProtocolState ≠ mcLinkErrRxOverflow by decide) 0
  have hreset := linkReset_resetLinkStatePreservingControlTx
    (queueError m.session mcLinkErrProtocolState 0).2
  unfold mcLinkSessionResetAfterError
  dsimp only
  split_ifs
  · refine ⟨FlowOk.queueReady (herror.linkReset hreset
      (history_resetLinkStatePreservingControlTx _)), ?_⟩
    rw [(sameLink_queueReady _).parser, hreset.parser]
    simp [mcLinkParserInit]
  · dsimp only
    refine ⟨herror, ?_⟩
    rw [(sameLink_queueError m.session mcLinkErrProtocolState 0).parser]
    exact h.short

theorem flowOk_queueServerTx {s : LinkSession} (h : FlowOk s) (serverTx : Ringbuf UInt8) :
    FlowOk (mcLinkSessionQueueServerTx s serverTx).2.1 ∧
      (mcLinkSessionQueueServerTx s serverTx).2.1.parser = s.parser ∧
      (mcLinkSessionQueueServerTx s serverTx).2.1.rx = s.rx := by
  rcases mcLinkSessionQueueServerTx_cases s serverTx with
    hq | hq | ⟨n, payload, _, _, _, _, _, _, hq⟩
  · rw [hq]
    exact ⟨h, rfl, rfl⟩
  · rw [hq]
    exact ⟨h.congr rfl rfl, rfl, rfl⟩
  · rw [hq]
    exact ⟨⟨h.cap, h.credit, h.raised⟩, rfl, rfl⟩

theorem history_mcLinkSessionReadTx (s : LinkSession) (maxLen : ℕ) :
    (mcLinkSessionReadTx s maxLen).2.history = s.history := by
  have hselect : (selectActiveTx s).history = s.history := by
    unfold selectActiveTx
    split_ifs
    · split <;> rfl
    · rfl
  unfold mcLinkSessionReadTx clearActiveTx
  split_ifs
  · rfl
  · dsimp only
    split
    · exact hselect
    · split_ifs
      · exact hselect
      · exact hselect
      · refine Eq.trans ?_ hselect
        rename_i queue _ _ _ _
        cases queue <;> rfl
      · refine Eq.trans ?_ hselect
        rename_i queue _ _ _ _
        cases queue <;> rfl

theorem MainFlow.pumpServer {m : Main σ} (h : MainFlow m rxRingBound) (ops : McServerOps σ)
    (nowTicks : UInt32) : MainFlow (pumpServer ops m nowTicks) 511 := by
  have htaken : MainFlow (takeRxBytes m).2 511 := by
    refine ⟨h.flow.congr rfl rfl, h.short, ?_⟩
    have hheld := h.held
    have hshort := h.short
    simp only [Firmware.takeRxBytes, System.held, Ringbuf.len, Ringbuf.items_read, List.length_drop,
      mcLinkMaxFrameLen, mcLinkMaxEncodedLen, mcTickBudgetRxBytes, rxRingBound] at hheld hshort ⊢
    omega
  have hreceived : MainFlow (serverReceive ops (takeRxBytes m).2 (takeRxBytes m).1).2 511 :=
    htaken.congr rfl
  unfold Firmware.pumpServer
  dsimp only
  split_ifs
  · exact htaken.pumpServerTick ops nowTicks
  · obtain ⟨hflow, hshort⟩ := flowOk_mcLinkSessionResetAfterError hreceived
    generalize (mcLinkSessionResetAfterError (serverReceive ops (takeRxBytes m).2
      (takeRxBytes m).1).2.session mcLinkErrProtocolState 0).2 = t at hflow hshort ⊢
    exact (mainFlow_resetConnection ops hflow.credit hflow.raised hshort).mono
      (Nat.le_of_lt_succ hshort)
  · refine MainFlow.pumpServerTick (MainFlow.pumpServerTxReset ?_ ops) ops nowTicks
    refine hreceived.session ?_ (sameLink_queueAckC2m _ 0)
    exact hreceived.flow.queueAckC2m (hreceived.rx_len_le.trans (by decide)) 0

theorem MainFlow.pumpLinkTx {m : Main σ} {bound : ℕ} (h : MainFlow m bound) (accepted₁ accepted₂ : ℕ) :
    MainFlow (pumpLinkTx m accepted₁ accepted₂).2 bound := by
  have hnext : ∀ (m : Main σ) (budget : ℕ), MainFlow m bound →
      MainFlow (pumpLinkTxNext m budget accepted₂).2 bound := by
    intro m budget h
    obtain ⟨hflow, hparser, hrx⟩ := flowOk_queueServerTx h.flow m.txRing
    have hread := sameLink_mcLinkSessionReadTx (mcLinkSessionQueueServerTx m.session m.txRing).2.1
      mcLinkTxPendingBytes
    have hsession : MainFlow { m with session := (mcLinkSessionReadTx
        (mcLinkSessionQueueServerTx m.session m.txRing).2.1 mcLinkTxPendingBytes).2 } bound := by
      refine ⟨hflow.congr (congrArg Ringbuf.cap hread.rx) (history_mcLinkSessionReadTx _ _), ?_, ?_⟩
      · rw [hread.parser, hparser]
        exact h.short
      · rw [held_sameLink hread, System.held, hparser, hrx]
        exact h.held
    unfold Firmware.pumpLinkTxNext
    dsimp only
    split_ifs
    · exact hsession.congr rfl
    · exact hsession.congr rfl
    · exact hsession.congr rfl
  unfold Firmware.pumpLinkTx
  split_ifs
  · dsimp only
    split_ifs
    · exact h.congr rfl
    · exact h.congr rfl
    · refine hnext _ _ ?_
      exact h.congr rfl
  · exact hnext m _ h

/-- Which pump of the main loop runs next. -/
inductive Pump
  | linkRx | server | linkTx

/-- The bridge's sender and the firmware's main loop. Whole frames can be lost; `line`
has the bytes that reach the firmware, and `part` those sent of a frame to the bridge. -/
structure FlowSystem (σ : Type u) where
  sender : C2mSender
  main : Main σ
  next : Pump
  toFirmware : List (List UInt8)
  line : List UInt8
  part : List UInt8
  toBridge : List (List UInt8)

inductive FlowOp
  | push (data : List UInt8)
  | pushFiltered (data : List UInt8)
  | send (now : ℕ)
  | retransmit (now timeout : ℕ)
  | loseToFirmware (index : ℕ)
  | arrive
  | pump (available : ℕ) (nowTicks : UInt32) (accepted₁ accepted₂ : ℕ)
  | loseToBridge (index : ℕ)
  | bridgeReceive

/-- The next pump; `available` bytes of the line have come in, and the writes accept the
given counts. -/
def flowPump (ops : McServerOps σ) (f : FlowSystem σ) (available : ℕ) (nowTicks : UInt32)
    (accepted₁ accepted₂ : ℕ) : FlowSystem σ :=
  match f.next with
  | .linkRx =>
    let count := min available mcTickBudgetRxBytes
    { f with
      main := pumpLinkRx ops f.main (f.line.take count), line := f.line.drop count
      next := .server }
  | .server => { f with main := pumpServer ops f.main nowTicks, next := .linkTx }
  | .linkTx =>
    let sent := pumpLinkTx f.main accepted₁ accepted₂
    let cut := cutFrames mcLinkDelimiter (f.part ++ sent.1)
    { f with main := sent.2, part := cut.2, toBridge := f.toBridge ++ cut.1, next := .linkRx }

def flowStep (ops : McServerOps σ) (f : FlowSystem σ) : FlowOp → Except IoError (FlowSystem σ)
  | .push data => .ok { f with sender := f.sender.pushTcpBytes data }
  | .pushFiltered data => .ok { f with sender := (f.sender.pushFilteredTcpBytes data).1 }
  | .send now =>
    match sendNextFrame f.sender now with
    | .error error => .error error
    | .ok (encoded, sender) => .ok { f with sender, toFirmware := f.toFirmware ++ encoded.toList }
  | .retransmit now timeout =>
    match f.sender.retransmitIfDue now timeout with
    | none => .ok f
    | some encoded => .ok { f with
        sender := f.sender.markRetransmitted now, toFirmware := f.toFirmware ++ [encoded] }
  | .loseToFirmware index => .ok { f with toFirmware := f.toFirmware.eraseIdx index }
  | .arrive =>
    match f.toFirmware with
    | [] => .ok f
    | frame :: rest => .ok { f with line := f.line ++ frame, toFirmware := rest }
  | .pump available nowTicks accepted₁ accepted₂ =>
    .ok (flowPump ops f available nowTicks accepted₁ accepted₂)
  | .loseToBridge index => .ok { f with toBridge := f.toBridge.eraseIdx index }
  | .bridgeReceive =>
    match f.toBridge with
    | [] => .ok f
    | frame :: rest =>
      match receiveAck f.sender frame with
      | .error error => .error error
      | .ok sender => .ok { f with sender, toBridge := rest }

/-- Steps one after the other; an error ends the run. -/
def flowRun (ops : McServerOps σ) : FlowSystem σ → List FlowOp → Except IoError (FlowSystem σ)
  | f, [] => .ok f
  | f, op :: steps =>
    match flowStep ops f op with
    | .error error => .error error
    | .ok f => flowRun ops f steps

/-- The firmware has run its loop for any time with any bytes received; the bridge has
just taken over the credit of a `READY`. -/
structure FlowStart (ops : McServerOps σ) (f : FlowSystem σ) : Prop where
  main : ∃ inputs, f.main = (mainRun ops (mainBoot ops) inputs).2 ∧
    f.part = (cutFrames mcLinkDelimiter (mainRun ops (mainBoot ops) inputs).1).2 ∧
    ∀ frame ∈ f.toBridge,
      frame ∈ (cutFrames mcLinkDelimiter (mainRun ops (mainBoot ops) inputs).1).1
  next : f.next = .linkRx
  outstanding : f.sender.outstanding = none
  credit : f.sender.credit = 512

/-- What a pump may find. -/
def Pump.bound : Pump → ℕ
  | .server => rxRingBound
  | _ => 511

/-- The sender has credit whenever it waits for nothing. -/
structure SenderOk (sender : C2mSender) : Prop where
  credit : sender.outstanding = none → 0 < sender.credit.toNat
  pending : ∀ o, sender.outstanding = some o → o.payloadLen ≤ sender.pendingTcp.length

structure FlowInv (f : FlowSystem σ) : Prop where
  sender : SenderOk f.sender
  main : MainFlow f.main f.next.bound
  wire : ∃ wire, MainFramed f.main wire ∧ f.part = (cutFrames mcLinkDelimiter wire).2
  toBridge : ∀ frame ∈ f.toBridge, CreditOk frame

theorem creditOk_of_mem_cut {m : Main σ} {bound : ℕ} (h : MainFlow m bound) {wire : List UInt8}
    (hframed : MainFramed m wire) {frame : List UInt8}
    (hmem : frame ∈ (cutFrames mcLinkDelimiter wire).1) : CreditOk frame := by
  obtain ⟨sent, hsent, hwire⟩ := hframed.written
  have hpart : mcLinkDelimiter ∉ m.linkPending.take m.linkPendingPos := by
    rcases hframed.pending with ⟨hnil, _⟩ | ⟨hframe, hpos⟩
    · simp [hnil]
    · exact (hframe.isLinkFrame hframed.idle).isFrame.notMem_take hpos
  rw [hwire, cutFrames_flatten (fun f hf =>
    ((hsent f hf).isLinkFrame hframed.idle).isFrame) hpart] at hmem
  obtain ⟨q, hq, hframe⟩ := (hsent frame hmem).txFrame hframed.idle
  cases q with
  | control => exact h.flow.credit frame hq
  | data =>
    obtain ⟨hanswer, hnone⟩ := isAnswer_data hframe
    exact ⟨hanswer.1, fun answer hsome => by rw [hnone] at hsome; contradiction⟩

theorem SenderOk.pushBytes {sender : C2mSender} (h : SenderOk sender) (data buffer : List UInt8) :
    SenderOk { sender with
      pendingTcp := sender.pendingTcp ++ data, minecraftFrameBuffer := buffer } :=
  ⟨h.credit, fun o ho => (h.pending o ho).trans (by simp)⟩

theorem senderOk_sent {sender : C2mSender} {n : ℕ} (hlen : sender.nextPayloadLen = some n)
    (now : ℕ) : SenderOk (sender.sent n now) := by
  refine ⟨fun hnone => by simp [C2mSender.sent] at hnone, ?_⟩
  rintro o ho
  cases ho
  exact (Bridge.nextPayloadLen_eq_some hlen).2.2.1

theorem SenderOk.markRetransmitted {sender : C2mSender} (h : SenderOk sender) (now : ℕ) :
    SenderOk (sender.markRetransmitted now) := by
  unfold C2mSender.markRetransmitted
  split
  case h_1 => exact h
  case h_2 o ho =>
    refine ⟨fun hnone => by simp at hnone, ?_⟩
    rintro o' ho'
    cases ho'
    exact h.pending o ho

theorem SenderOk.receiveAck {sender : C2mSender} (h : SenderOk sender) {frame : List UInt8}
    (hframe : CreditOk frame) :
    ∃ sender', receiveAck sender frame = .ok sender' ∧ SenderOk sender' := by
  obtain ⟨⟨type, seq, ack, payload, hlen, hpayload, rfl⟩, hcredit⟩ := hframe
  by_cases htype : type = mcLinkAckC2m
  case neg => exact ⟨sender, receiveAck_of_ne sender hlen htype seq ack, h⟩
  subst htype
  obtain ⟨credit, rfl⟩ := hpayload rfl
  have hpos : 0 < credit.toNat :=
    Nat.lt_of_lt_of_le (by decide) (hcredit _ (ackC2mOf_ackC2m seq ack credit))
  rw [receiveAck_ackC2m]
  cases houtstanding : sender.outstanding with
  | none =>
    refine ⟨{ sender with credit := credit }, by simp [C2mSender.handleAck, houtstanding], ?_⟩
    exact ⟨fun _ => hpos, h.pending⟩
  | some o =>
    by_cases hack : ack = o.seq + 1
    · refine ⟨{ sender with
        credit := credit, pendingTcp := sender.pendingTcp.drop o.payloadLen
        outstanding := none }, ?_, fun _ => hpos, by simp⟩
      simp [C2mSender.handleAck, houtstanding, hack, h.pending o houtstanding]
    · refine ⟨{ sender with credit := credit }, ?_, fun _ => hpos, h.pending⟩
      simp [C2mSender.handleAck, houtstanding, hack]

theorem FlowInv.pump {f : FlowSystem σ} (h : FlowInv f) (ops : McServerOps σ) (available : ℕ)
    (nowTicks : UInt32) (accepted₁ accepted₂ : ℕ) :
    FlowInv (flowPump ops f available nowTicks accepted₁ accepted₂) := by
  obtain ⟨wire, hframed, hpart⟩ := h.wire
  have hmain := h.main
  unfold flowPump
  cases hnext : f.next with
  | linkRx =>
    rw [hnext] at hmain
    refine ⟨h.sender, hmain.pumpLinkRx ops ?_, ⟨wire, hframed.pumpLinkRx ops _, hpart⟩, h.toBridge⟩
    exact (List.length_take_le _ _).trans (Nat.min_le_right _ _)
  | server =>
    rw [hnext] at hmain
    exact ⟨h.sender, hmain.pumpServer ops nowTicks,
      ⟨wire, hframed.pumpServer ops nowTicks, hpart⟩, h.toBridge⟩
  | linkTx =>
    rw [hnext] at hmain
    have hsent := hmain.pumpLinkTx accepted₁ accepted₂
    have hwire := hframed.pumpLinkTx accepted₁ accepted₂
    have hcut := cutFrames_append mcLinkDelimiter wire (pumpLinkTx f.main accepted₁ accepted₂).1
    rw [← hpart] at hcut
    refine ⟨h.sender, hsent, ⟨_, hwire, (congrArg Prod.snd hcut).symm⟩, fun frame hframe => ?_⟩
    rcases List.mem_append.mp hframe with hold | hnew
    · exact h.toBridge frame hold
    · refine creditOk_of_mem_cut hsent hwire ?_
      rw [hcut]
      exact List.mem_append_right _ hnew

theorem FlowInv.step {f : FlowSystem σ} (h : FlowInv f) (ops : McServerOps σ) (op : FlowOp) :
    (∃ f', flowStep ops f op = .ok f' ∧ FlowInv f') ∨
      flowStep ops f op = .error sequenceExhausted := by
  cases op with
  | push data =>
    exact .inl ⟨_, rfl, h.sender.pushBytes data f.sender.minecraftFrameBuffer, h.main, h.wire,
      h.toBridge⟩
  | pushFiltered data =>
    obtain ⟨out, rest, hpush⟩ : ∃ out rest, (f.sender.pushFilteredTcpBytes data).1 =
        { f.sender with
          pendingTcp := f.sender.pendingTcp ++ out, minecraftFrameBuffer := rest } :=
      Bridge.drainLoop_appends _ _
    refine .inl ⟨_, rfl, ?_, h.main, h.wire, h.toBridge⟩
    show SenderOk (f.sender.pushFilteredTcpBytes data).1
    rw [hpush]
    exact h.sender.pushBytes out rest
  | send now =>
    rcases Bridge.sendNextFrame_cases f.sender now with
      ⟨_, hsend⟩ | ⟨_, _, hsend⟩ | ⟨n, hlen, _, hsend⟩
    · refine .inl ⟨f, ?_, h⟩
      simp [flowStep, hsend]
    · exact .inr (by simp [flowStep, hsend])
    · refine .inl ⟨_, by simp only [flowStep, hsend]; rfl, ?_⟩
      exact ⟨senderOk_sent hlen now, h.main, h.wire, h.toBridge⟩
  | retransmit now timeout =>
    cases hdue : f.sender.retransmitIfDue now timeout with
    | none => exact .inl ⟨f, by simp [flowStep, hdue], h⟩
    | some encoded =>
      refine .inl ⟨_, by simp only [flowStep, hdue]; rfl, ?_⟩
      exact ⟨h.sender.markRetransmitted now, h.main, h.wire, h.toBridge⟩
  | loseToFirmware index => exact .inl ⟨_, rfl, h.sender, h.main, h.wire, h.toBridge⟩
  | arrive =>
    cases hframe : f.toFirmware with
    | nil => exact .inl ⟨f, by simp [flowStep, hframe], h⟩
    | cons frame rest =>
      refine .inl ⟨_, by simp only [flowStep, hframe]; rfl, ?_⟩
      exact ⟨h.sender, h.main, h.wire, h.toBridge⟩
  | pump available nowTicks accepted₁ accepted₂ =>
    exact .inl ⟨_, rfl, h.pump ops available nowTicks accepted₁ accepted₂⟩
  | loseToBridge index =>
    exact .inl ⟨_, rfl, h.sender, h.main, h.wire,
      fun frame hframe => h.toBridge frame ((List.eraseIdx_sublist _ index).subset hframe)⟩
  | bridgeReceive =>
    cases hframe : f.toBridge with
    | nil => exact .inl ⟨f, by simp [flowStep, hframe], h⟩
    | cons frame rest =>
      obtain ⟨sender, hsender, hok⟩ := h.sender.receiveAck (h.toBridge frame (by simp [hframe]))
      refine .inl ⟨_, by simp only [flowStep, hframe, hsender]; rfl, ?_⟩
      exact ⟨hok, h.main, h.wire, fun f' hf' => h.toBridge f' (by simp [hframe, hf'])⟩

theorem FlowInv.run {f : FlowSystem σ} (h : FlowInv f) (ops : McServerOps σ)
    (steps : List FlowOp) :
    (∃ f', flowRun ops f steps = .ok f' ∧ FlowInv f') ∨
      flowRun ops f steps = .error sequenceExhausted := by
  induction steps generalizing f with
  | nil => exact .inl ⟨f, rfl, h⟩
  | cons op steps ih =>
    rw [flowRun]
    rcases h.step ops op with ⟨f₁, hstep, hinv⟩ | hstep
    · rw [hstep]
      exact ih hinv
    · rw [hstep]
      exact .inr rfl

theorem MainFlow.mainRun {m : Main σ} (h : MainFlow m 511) (ops : McServerOps σ)
    (inputs : List LoopInput) : MainFlow (mainRun ops m inputs).2 511 := by
  induction inputs generalizing m with
  | nil => exact h
  | cons input inputs ih =>
    exact ih (((h.pumpLinkRx ops input.buf_length_le).pumpServer ops input.nowTicks).pumpLinkTx
      input.accepted₁ input.accepted₂)

theorem FlowStart.inv {ops : McServerOps σ} {f : FlowSystem σ} (h : FlowStart ops f) :
    FlowInv f := by
  obtain ⟨inputs, hmain, hpart, hbridge⟩ := h.main
  have hflow : MainFlow f.main 511 := hmain ▸ (mainFlow_mainBoot ops).mainRun ops inputs
  have hframed : MainFramed f.main (mainRun ops (mainBoot ops) inputs).1 := by
    have := (mainFramed_mainBoot ops).mainRun ops inputs
    rwa [← hmain, List.nil_append] at this
  refine ⟨⟨fun _ => ?_, fun o ho => ?_⟩, ?_, ⟨_, hframed, hpart⟩,
    fun frame hframe => creditOk_of_mem_cut hflow hframed (hbridge frame hframe)⟩
  · rw [h.credit]
    decide
  · rw [h.outstanding] at ho
    contradiction
  · rw [h.next]
    exact hflow

theorem nextFrameToSend_of_credit {sender : C2mSender} (houtstanding : sender.outstanding = none)
    (hpending : sender.pendingTcp ≠ []) (hcredit : 0 < sender.credit.toNat) :
    (∃ frame, sender.nextFrameToSend = .ok (some frame)) ∨
      sender.nextFrameToSend = .error sequenceExhausted := by
  -- With pending bytes, credit and nothing outstanding there is a frame to send.
  have hne : sender.credit ≠ 0 := by
    rintro hzero
    rw [hzero] at hcredit
    exact absurd hcredit (by decide)
  have hpos := List.length_pos_of_ne_nil hpending
  obtain ⟨n, hn⟩ : ∃ n, sender.nextPayloadLen = some n := by
    refine ⟨min (min sender.pendingTcp.length (min (max sender.negotiatedPayload 1)
      Bridge.Link.firmwarePayloadCap)) sender.credit.toNat, ?_⟩
    rw [C2mSender.nextPayloadLen, if_neg (by simp [houtstanding, hpending, hne])]
    refine if_pos ?_
    simp only [Bridge.Link.firmwarePayloadCap, Bridge.Link.maxPayload]
    omega
  by_cases hseq : sender.nextSeq = 0xffff
  · exact .inr (by simp [C2mSender.nextFrameToSend, hn, hseq, sequenceExhausted])
  · exact .inl ⟨_, by simp only [C2mSender.nextFrameToSend, hn, if_neg hseq]; rfl⟩

/-- Flow control never stalls. Whatever the channels lose, in every state that the steps
reach, between any two pumps, the receive ring holds at most 1023 bytes, no overflow was
ever raised, and a sender that has bytes to send and waits for nothing has credit and a
frame to send, or has used up its sequence numbers. -/
theorem flowRun_noDeadlock (ops : McServerOps σ) {f : FlowSystem σ} (hstart : FlowStart ops f)
    (steps : List FlowOp) :
    (∃ f', flowRun ops f steps = .ok f' ∧ f'.main.session.rx.len ≤ rxRingBound ∧
        (∀ e ∈ f'.main.session.history.raised, e.1 ≠ mcLinkErrRxOverflow) ∧
        (f'.sender.outstanding = none → f'.sender.pendingTcp ≠ [] →
          0 < f'.sender.credit.toNat ∧
          ((∃ frame, f'.sender.nextFrameToSend = .ok (some frame)) ∨
            f'.sender.nextFrameToSend = .error sequenceExhausted))) ∨
      flowRun ops f steps = .error sequenceExhausted := by
  rcases hstart.inv.run ops steps with ⟨f', hrun, hinv⟩ | hrun
  · have hbound : f'.next.bound ≤ rxRingBound := by cases f'.next <;> decide
    refine .inl ⟨f', hrun, hinv.main.rx_len_le.trans hbound, hinv.main.flow.raised,
      fun houtstanding hpending => ?_⟩
    have hcredit := hinv.sender.credit houtstanding
    exact ⟨hcredit, nextFrameToSend_of_credit houtstanding hpending hcredit⟩
  · exact .inr hrun

/-- A server that takes every byte and sends none. -/
def sinkServer : McServerOps Unit :=
  { init := (), receive := fun _ _ txRing => (true, (), txRing)
    tickAt := fun _ txRing _ => (true, (), txRing), takeTxReset := fun _ => (false, ()) }

def flowBoot : FlowSystem Unit :=
  { sender := .new 497 512, main := mainBoot sinkServer, next := .linkRx, toFirmware := []
    line := [], part := [], toBridge := [] }

theorem flowStart_boot : FlowStart sinkServer flowBoot :=
  ⟨⟨[], rfl, rfl, by simp [flowBoot]⟩, rfl, rfl, rfl⟩

/-- A frame arrives in two reads; its acknowledgement comes back and more bytes wait. -/
def twoReads : List FlowOp :=
  [.push [1, 2, 3], .send 0, .arrive, .pump 7 0 512 512, .pump 0 0 512 512, .pump 0 0 512 512,
    .pump 512 0 512 512, .pump 0 0 512 512, .pump 0 0 512 512, .bridgeReceive, .push [4]]

theorem flowRun_noDeadlock_twoReads :
    ∃ f', flowRun sinkServer flowBoot twoReads = .ok f' ∧ f'.main.session.rx.len ≤ rxRingBound ∧
      f'.sender.pendingTcp = [4] ∧ 0 < f'.sender.credit.toNat := by
  have hvalue : (flowRun sinkServer flowBoot twoReads).toOption.map
      (fun f => (f.sender.pendingTcp, f.sender.outstanding)) = some ([4], none) := by
    decide +kernel
  rcases flowRun_noDeadlock sinkServer flowStart_boot twoReads with
    ⟨f', hok, hlen, _, hsend⟩ | herror
  · rw [hok] at hvalue
    have hpair := Option.some.inj hvalue
    have hpending : f'.sender.pendingTcp = [4] := congrArg Prod.fst hpair
    have hcredit := hsend (congrArg Prod.snd hpair) (by simp [hpending])
    exact ⟨f', hok, hlen, hpending, hcredit.1⟩
  · rw [herror] at hvalue
    contradiction

end StarrySky.System
