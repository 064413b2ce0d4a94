import StarrySky.Base.FrameMux
import StarrySky.Firmware.LinkSession

/-! The transmit half of the link session as two queues of frames on one line. -/

namespace StarrySky.Firmware
open StarrySky.Base StarrySky.Link

/-- A frame as the codec writes it. -/
def IsLinkFrame (frame : List UInt8) : Prop :=
  ∃ type seq ack payload, mcLinkEncode type seq ack payload mcLinkMaxFrameLen = some frame

theorem IsLinkFrame.isFrame {frame : List UInt8} (h : IsLinkFrame frame) :
    IsFrame mcLinkDelimiter frame := by
  obtain ⟨type, seq, ack, payload, h⟩ := h
  rw [(mcLinkEncode_eq_some h).2]
  exact isFrame_mcLinkFrameBytes type seq ack payload

theorem IsLinkFrame.length_le {frame : List UInt8} (h : IsLinkFrame frame) :
    frame.length ≤ mcLinkMaxFrameLen := by
  obtain ⟨type, seq, ack, payload, h⟩ := h
  obtain ⟨hle, rfl⟩ := mcLinkEncode_eq_some h
  exact length_mcLinkFrameBytes_le hle type seq ack

theorem isLinkFrame_mcLinkFrameBytes {payload : List UInt8}
    (h : payload.length ≤ mcLinkMaxPayload) (type : UInt8) (seq ack : UInt16) :
    IsLinkFrame (mcLinkFrameBytes type seq ack payload) :=
  ⟨type, seq, ack, payload, mcLinkEncode_of_le h (Nat.le_refl _) type seq ack⟩

/-- What each queue holds: data frames on the data queue, and any others on the control queue. -/
def TxFrame : TxQueue → List UInt8 → Prop
  | .data, frame => ∃ seq ack payload,
      mcLinkEncode mcLinkDataM2c seq ack payload mcLinkMaxFrameLen = some frame
  | .control, frame => ∃ type seq ack payload, type ≠ mcLinkDataM2c ∧
      mcLinkEncode type seq ack payload mcLinkMaxFrameLen = some frame

theorem TxFrame.isLinkFrame {q : TxQueue} {frame : List UInt8} (h : TxFrame q frame) :
    IsLinkFrame frame := by
  cases q with
  | data => exact ⟨_, h⟩
  | control =>
    obtain ⟨type, seq, ack, payload, _, h⟩ := h
    exact ⟨type, seq, ack, payload, h⟩

theorem txFrame_data {payload : List UInt8} (h : payload.length ≤ mcLinkMaxPayload)
    (seq ack : UInt16) : TxFrame .data (mcLinkFrameBytes mcLinkDataM2c seq ack payload) :=
  ⟨seq, ack, payload, mcLinkEncode_of_le h (Nat.le_refl _) _ seq ack⟩

theorem txFrame_control {payload : List UInt8} (h : payload.length ≤ mcLinkMaxPayload)
    {type : UInt8} (htype : type ≠ mcLinkDataM2c) (seq ack : UInt16) :
    TxFrame .control (mcLinkFrameBytes type seq ack payload) :=
  ⟨type, seq, ack, payload, htype, mcLinkEncode_of_le h (Nat.le_refl _) _ seq ack⟩

/-- No data frame starts while a control frame waits. -/
def txBefore (p q : TxQueue) : Prop := p = .control ∧ q = .data

abbrev TxMux := Mux TxQueue UInt8

/-- The rings hold the unsent tail of the active frame, then the waiting frames. -/
structure TxRel (s : LinkSession) (m : TxMux) : Prop where
  run : Relation.ReflTransGen (Mux.Step TxFrame txBefore) .init m
  queued : ∀ q, m.queued q = s.history.queued q
  active : m.current.map (fun c => (c.1, c.2.2.length)) =
    s.activeTxQueue.map fun q => (q, s.activeTxRemaining)
  tail_ne_nil : ∀ q part tail, m.current = some (q, part, tail) → tail ≠ []
  ring : ∀ q, (s.ring q).items = m.tailOf q ++ (m.waiting q).flatten

theorem TxRel.sound {s : LinkSession} {m : TxMux} (h : TxRel s m) : m.Sound TxFrame :=
  Mux.sound_of_run h.run

theorem txRel_init (rx : Ringbuf UInt8) : TxRel (mcLinkSessionInit rx) .init where
  run := .refl
  queued := by rintro (_ | _) <;> rfl
  active := rfl
  tail_ne_nil := by
    intro q part tail h
    exact absurd h (by simp [Mux.init])
  ring := by rintro (_ | _) <;> rfl

theorem TxRel.activeTxQueue_eq_none {s : LinkSession} {m : TxMux} (h : TxRel s m) :
    s.activeTxQueue = none ↔ m.current = none := by
  have := h.active
  cases hs : s.activeTxQueue <;> cases hm : m.current <;> simp [hs, hm] at this ⊢

theorem TxRel.of_current {s : LinkSession} {m : TxMux} (h : TxRel s m) {q : TxQueue}
    {part tail : List UInt8} (hcurrent : m.current = some (q, part, tail)) :
    s.activeTxQueue = some q ∧ s.activeTxRemaining = tail.length := by
  have := h.active
  rw [hcurrent] at this
  cases hs : s.activeTxQueue with
  | none => simp [hs] at this
  | some p =>
    simp only [hs, Option.map_some, Option.some.injEq, Prod.mk.injEq] at this
    exact ⟨by rw [this.1], this.2.symm⟩

theorem TxRel.exists_current {s : LinkSession} {m : TxMux} (h : TxRel s m) {q : TxQueue}
    (hactive : s.activeTxQueue = some q) :
    ∃ part tail, m.current = some (q, part, tail) ∧ s.activeTxRemaining = tail.length := by
  cases hm : m.current with
  | none =>
    rw [h.activeTxQueue_eq_none.mpr hm] at hactive
    contradiction
  | some c =>
    obtain ⟨p, part, tail⟩ := c
    obtain ⟨hp, hlen⟩ := h.of_current hm
    rw [hactive] at hp
    exact ⟨part, tail, by rw [Option.some.inj hp], hlen⟩

theorem TxRel.tailOf_of_ne {s : LinkSession} {m : TxMux} (h : TxRel s m) {q : TxQueue}
    (hactive : s.activeTxQueue ≠ some q) : m.tailOf q = [] := by
  cases hm : m.current with
  | none => simp [Mux.tailOf, hm]
  | some c =>
    have hne : c.1 ≠ q := by
      intro hq
      exact hactive (hq ▸ (h.of_current hm).1)
    simp [Mux.tailOf, hm, hne]

theorem TxRel.tailOf_of_current {s : LinkSession} {m : TxMux} (_h : TxRel s m) {q : TxQueue}
    {part tail : List UInt8} (hcurrent : m.current = some (q, part, tail)) :
    m.tailOf q = tail := by
  simp [Mux.tailOf, hcurrent]

theorem TxRel.waiting_data_eq_nil {s : LinkSession} {m : TxMux} (h : TxRel s m)
    (hlen : s.tx.len ≤ if s.activeTxQueue = some .data then s.activeTxRemaining else 0) :
    m.waiting .data = [] := by
  -- A drop that finds no whole frame forgets none.
  have hring : s.tx.items = m.tailOf .data ++ (m.waiting .data).flatten := h.ring .data
  have htail : (m.tailOf .data).length =
      if s.activeTxQueue = some .data then s.activeTxRemaining else 0 := by
    split_ifs with hactive
    · obtain ⟨part, tail, hcurrent, hremaining⟩ := h.exists_current hactive
      rw [h.tailOf_of_current hcurrent, hremaining]
    · rw [h.tailOf_of_ne hactive]
      rfl
  have hflatten : (m.waiting .data).flatten = [] := by
    apply List.eq_nil_of_length_eq_zero
    rw [Ringbuf.len, hring, List.length_append, htail] at hlen
    omega
  cases hwaiting : m.waiting .data with
  | nil => rfl
  | cons frame rest =>
    have hframe := (h.sound.waiting .data frame (by simp [hwaiting])).isLinkFrame.isFrame.ne_nil
    simp only [hwaiting, List.flatten_cons, List.append_eq_nil_iff] at hflatten
    exact absurd hflatten.1 hframe

/-- The transmit half of the session is the same. -/
structure SameTx (s t : LinkSession) : Prop where
  tx : t.tx = s.tx
  controlTx : t.controlTx = s.controlTx
  activeTxQueue : t.activeTxQueue = s.activeTxQueue
  activeTxRemaining : t.activeTxRemaining = s.activeTxRemaining
  queuedData : t.history.queuedData = s.history.queuedData
  queuedControl : t.history.queuedControl = s.history.queuedControl

theorem SameTx.ring {s t : LinkSession} (h : SameTx s t) (q : TxQueue) : t.ring q = s.ring q := by
  cases q
  · exact h.tx
  · exact h.controlTx

theorem sameTx_rx (s : LinkSession) (rx : Ringbuf UInt8) : SameTx s { s with rx := rx } :=
  ⟨rfl, rfl, rfl, rfl, rfl, rfl⟩

theorem sameTx_withParser (s : LinkSession) (parser : McLinkParser) :
    SameTx s { s with parser := parser } :=
  ⟨rfl, rfl, rfl, rfl, rfl, rfl⟩

theorem sameTx_takeResetRequested (s : LinkSession) :
    SameTx s (mcLinkSessionTakeResetRequested s).2 :=
  ⟨rfl, rfl, rfl, rfl, rfl, rfl⟩

theorem TxRel.congr {s t : LinkSession} {m : TxMux} (h : TxRel s m) (hst : SameTx s t) :
    TxRel t m where
  run := h.run
  queued := by
    rintro (_ | _)
    · exact (h.queued .data).trans hst.queuedData.symm
    · exact (h.queued .control).trans hst.queuedControl.symm
  active := by
    rw [hst.activeTxQueue, hst.activeTxRemaining]
    exact h.active
  tail_ne_nil := h.tail_ne_nil
  ring q := by
    rw [hst.ring q]
    exact h.ring q

theorem TxRel.enqueue {s : LinkSession} {m : TxMux} (h : TxRel s m) {q : TxQueue}
    {frame : List UInt8} (hframe : TxFrame q frame) (hfree : frame.length ≤ (s.ring q).free) :
    TxRel (s.enqueue q frame) (m.enqueue q frame) where
  run := h.run.tail (.enqueue m q frame hframe)
  queued p := by
    have := h.queued p
    rw [Mux.queued_enqueue, this]
    cases p <;> cases q <;>
      simp [LinkSession.enqueue, SessionHistory.queued, SessionHistory.logQueued]
  active := by cases q <;> exact h.active
  tail_ne_nil := h.tail_ne_nil
  ring p := by
    have hp := h.ring p
    have hwrite := (Ringbuf.write_of_le hfree).2
    by_cases hq : p = q
    · subst hq
      have : (s.enqueue p frame).ring p = ((s.ring p).write frame).2 := by cases p <;> rfl
      rw [this, hwrite, hp]
      simp [Mux.tailOf, Mux.enqueue]
    · have : (s.enqueue q frame).ring p = s.ring p := by
        cases p <;> cases q <;> first | rfl | exact absurd rfl hq
      rw [this, hp]
      simp [Mux.tailOf, Mux.enqueue, hq]

theorem sameTx_countError (s : LinkSession) : SameTx s s.countError :=
  ⟨rfl, rfl, rfl, rfl, rfl, rfl⟩

theorem TxRel.queueControlFrame {s : LinkSession} {m : TxMux} (h : TxRel s m) (type : UInt8)
    (htype : type ≠ mcLinkDataM2c) (seq ack : UInt16) (payload : List UInt8) :
    TxRel (queueControlFrame s type seq ack payload).2 m ∨
    TxRel (queueControlFrame s type seq ack payload).2
      (m.enqueue .control (mcLinkFrameBytes type seq ack payload)) := by
  rw [Firmware.queueControlFrame, queueFrame_eq]
  split_ifs with hroom
  · exact .inr (h.enqueue (txFrame_control hroom.1 htype seq ack) hroom.2)
  · exact .inl (h.congr (sameTx_countError s))

theorem TxRel.enqueueAck {s : LinkSession} {m : TxMux} (h : TxRel s m) {ack : UInt16}
    (hfree : (ackFrame s ack).length ≤ s.controlTx.free) :
    TxRel (s.enqueueAck ack) (m.enqueue .control (ackFrame s ack)) :=
  (h.enqueue (txFrame_control (by simp [mcLinkMaxPayload]) (by decide) 0 ack) hfree).congr
    ⟨rfl, rfl, rfl, rfl, rfl, rfl⟩

theorem TxRel.forget {s t : LinkSession} {m : TxMux} (h : TxRel s m) {q : TxQueue}
    (hring : (t.ring q).items = m.tailOf q) (hother : ∀ p, p ≠ q → t.ring p = s.ring p)
    (hactive : t.activeTxQueue = s.activeTxQueue)
    (hremaining : s.activeTxQueue ≠ none → t.activeTxRemaining = s.activeTxRemaining)
    (hqueued : t.history = s.history) : TxRel t (m.forget q) where
  run := h.run.tail (.forget m q)
  queued p := by
    rw [hqueued]
    exact h.queued p
  active := by
    rw [hactive, Mux.forget]
    refine h.active.trans ?_
    cases hs : s.activeTxQueue with
    | none => rfl
    | some p => rw [hremaining (by simp [hs])]
  tail_ne_nil := h.tail_ne_nil
  ring p := by
    by_cases hp : p = q
    · subst hp
      simpa [Mux.forget, Mux.tailOf] using hring
    · rw [hother p hp, h.ring p]
      simp [Mux.forget, Mux.tailOf, hp]

theorem TxRel.take_ring {s : LinkSession} {m : TxMux} (h : TxRel s m) {q : TxQueue}
    (hactive : s.activeTxQueue = some q) :
    (s.ring q).items.take s.activeTxRemaining = m.tailOf q := by
  obtain ⟨part, tail, hcurrent, hlen⟩ := h.exists_current hactive
  rw [h.ring q, h.tailOf_of_current hcurrent, hlen, List.take_left]

theorem TxRel.dropDataTx {s : LinkSession} {m : TxMux} (h : TxRel s m) :
    TxRel (dropDataTx s) (m.forget .data) := by
  unfold Firmware.dropDataTx
  split_ifs with hdata
  · refine h.forget (h.take_ring hdata) ?_ rfl (fun _ => rfl) rfl
    rintro (_ | _) hp
    · exact absurd rfl hp
    · rfl
  · refine h.forget (h.tailOf_of_ne hdata).symm ?_ rfl (fun _ => rfl) rfl
    rintro (_ | _) hp
    · exact absurd rfl hp
    · rfl

theorem TxRel.dropControlTx {s : LinkSession} {m : TxMux} (h : TxRel s m) :
    TxRel (dropControlTx s) (m.forget .control) := by
  have hother : ∀ t : LinkSession, t.tx = s.tx → ∀ p, p ≠ .control → t.ring p = s.ring p := by
    rintro t ht (_ | _) hp
    · exact ht
    · exact absurd rfl hp
  unfold Firmware.dropControlTx
  dsimp only
  split_ifs with hcontrol hdata
  · exact h.forget (h.take_ring hcontrol) (hother _ rfl) rfl (fun _ => rfl) rfl
  · have hnone : s.activeTxQueue = none := by
      cases hs : s.activeTxQueue with
      | none => rfl
      | some p => cases p <;> simp_all
    exact h.forget (h.tailOf_of_ne hcontrol).symm (hother _ rfl) hnone.symm
      (fun hne => absurd hnone hne) rfl
  · exact h.forget (h.tailOf_of_ne hcontrol).symm (hother _ rfl) rfl (fun _ => rfl) rfl

theorem TxRel.dropQueuedData {s : LinkSession} {m : TxMux} (h : TxRel s m) :
    TxRel (mcLinkSessionDropQueuedData s) (m.forget .data) := by
  have hother : ∀ t : LinkSession, t.controlTx = s.controlTx →
      ∀ p, p ≠ .data → t.ring p = s.ring p := by
    rintro t ht (_ | _) hp
    · exact absurd rfl hp
    · exact ht
  unfold mcLinkSessionDropQueuedData
  dsimp only
  split_ifs with hdata hcontrol
  · exact h.forget (h.take_ring hdata) (hother _ rfl) rfl (fun _ => rfl) rfl
  · have hnone : s.activeTxQueue = none := by
      cases hs : s.activeTxQueue with
      | none => rfl
      | some p => cases p <;> simp_all
    exact h.forget (h.tailOf_of_ne hdata).symm (hother _ rfl) hnone.symm
      (fun hne => absurd hnone hne) rfl
  · exact h.forget (h.tailOf_of_ne hdata).symm (hother _ rfl) rfl (fun _ => rfl) rfl

/-- From `m` to `m'` frames were queued or forgotten and none went out. -/
structure MuxSilent (m m' : TxMux) : Prop where
  sent : m'.sent = m.sent
  current : m'.current = m.current
  queued : ∀ q, m.queued q <+: m'.queued q

theorem MuxSilent.refl (m : TxMux) : MuxSilent m m := ⟨rfl, rfl, fun _ => List.prefix_rfl⟩

theorem muxSilent_enqueue (m : TxMux) (q : TxQueue) (frame : List UInt8) :
    MuxSilent m (m.enqueue q frame) :=
  ⟨rfl, rfl, fun p => Mux.queued_enqueue m q p frame ▸ List.prefix_append _ _⟩

theorem muxSilent_forget (m : TxMux) (q : TxQueue) : MuxSilent m (m.forget q) :=
  ⟨rfl, rfl, fun _ => List.prefix_rfl⟩

def TxSilent (s t : LinkSession) : Prop :=
  ∀ m, TxRel s m → ∃ m', TxRel t m' ∧ MuxSilent m m'

theorem SameTx.silent {s t : LinkSession} (h : SameTx s t) : TxSilent s t :=
  fun m hm => ⟨m, hm.congr h, .refl m⟩

theorem TxSilent.refl (s : LinkSession) : TxSilent s s := fun m hm => ⟨m, hm, .refl m⟩

theorem TxSilent.trans {s t u : LinkSession} (h : TxSilent s t) (h' : TxSilent t u) :
    TxSilent s u := by
  intro m hm
  obtain ⟨m', hm', hsilent⟩ := h m hm
  obtain ⟨m'', hm'', hsilent'⟩ := h' m' hm'
  exact ⟨m'', hm'', hsilent'.sent.trans hsilent.sent, hsilent'.current.trans hsilent.current,
    fun q => (hsilent.queued q).trans (hsilent'.queued q)⟩

theorem TxSilent.andThen {s t u : LinkSession} (h : TxSilent s t) (h' : SameTx t u) :
    TxSilent s u :=
  h.trans h'.silent

theorem TxSilent.after {s t u : LinkSession} (h : TxSilent t u) (h' : SameTx s t) :
    TxSilent s u :=
  h'.silent.trans h

theorem txSilent_queueControlFrame (s : LinkSession) (type : UInt8)
    (htype : type ≠ mcLinkDataM2c) (seq ack : UInt16) (payload : List UInt8) :
    TxSilent s (queueControlFrame s type seq ack payload).2 := by
  intro m hm
  rcases hm.queueControlFrame type htype seq ack payload with h | h
  · exact ⟨m, h, .refl m⟩
  · exact ⟨_, h, muxSilent_enqueue m _ _⟩

theorem txSilent_queueReady (s : LinkSession) : TxSilent s (queueReady s).2 :=
  txSilent_queueControlFrame s _ (by decide) _ _ _

theorem txSilent_queueAckC2m (s : LinkSession) (ack : UInt16) :
    TxSilent s (queueAckC2m s ack).2 := by
  rcases queueAckC2m_cases s ack with ⟨hfree, h⟩ | h
  · rw [h]
    exact fun m hm => ⟨_, hm.enqueueAck hfree, muxSilent_enqueue m _ _⟩
  · rw [h]
    exact (sameTx_countError s).silent

theorem txSilent_queueError (s : LinkSession) (code detail : UInt8) :
    TxSilent s (queueError s code detail).2 :=
  TxSilent.after (txSilent_queueControlFrame (s.raise code detail) mcLinkError (by decide) 0 0
    [code, detail])
    ⟨rfl, rfl, rfl, rfl, rfl, rfl⟩

theorem txSilent_dropDataTx (s : LinkSession) : TxSilent s (dropDataTx s) :=
  fun m hm => ⟨m.forget .data, hm.dropDataTx, muxSilent_forget m _⟩

theorem txSilent_dropControlTx (s : LinkSession) : TxSilent s (dropControlTx s) :=
  fun m hm => ⟨m.forget .control, hm.dropControlTx, muxSilent_forget m _⟩

theorem txSilent_resetLinkStatePreservingControlTx (s : LinkSession) :
    TxSilent s (resetLinkStatePreservingControlTx s) := by
  unfold resetLinkStatePreservingControlTx
  dsimp only
  refine TxSilent.trans ?_ ((txSilent_dropDataTx _).andThen ⟨rfl, rfl, rfl, rfl, rfl, rfl⟩)
  exact SameTx.silent ⟨rfl, rfl, rfl, rfl, rfl, rfl⟩

theorem txSilent_resetLinkState (s : LinkSession) : TxSilent s (resetLinkState s) :=
  (txSilent_resetLinkStatePreservingControlTx s).trans (txSilent_dropControlTx _)

theorem txSilent_handleHello (s : LinkSession) (frame : McLinkFrame) :
    TxSilent s (handleHello s frame).2 := by
  unfold handleHello
  split
  · dsimp only
    split_ifs
    · exact txSilent_queueError s _ _
    · exact (txSilent_resetLinkState s).trans
        ((txSilent_queueReady _).after ⟨rfl, rfl, rfl, rfl, rfl, rfl⟩)
  · exact txSilent_queueError s _ _

theorem txSilent_handleReset (s : LinkSession) (frame : McLinkFrame) :
    TxSilent s (handleReset s frame).2 := by
  have hack := txSilent_queueControlFrame { resetLinkState s with resetRequested := true }
    mcLinkResetAck (by decide) frame.seq frame.ack []
  have h := (txSilent_resetLinkState s).trans (hack.after ⟨rfl, rfl, rfl, rfl, rfl, rfl⟩)
  unfold handleReset
  dsimp only
  split_ifs
  · exact h.trans (txSilent_queueReady _)
  · exact h

theorem txSilent_handleDataC2m (s : LinkSession) (frame : McLinkFrame) :
    TxSilent s (handleDataC2m s frame).2 := by
  unfold handleDataC2m
  dsimp only
  split_ifs
  · exact txSilent_queueError s _ _
  · exact (txSilent_queueAckC2m _ _).after ⟨rfl, rfl, rfl, rfl, rfl, rfl⟩
  · exact txSilent_queueError s _ _
  · exact txSilent_queueError s _ _
  · exact txSilent_queueError s _ _
  · exact (txSilent_queueError _ _ _).after ⟨rfl, rfl, rfl, rfl, rfl, rfl⟩
  · exact (txSilent_queueAckC2m _ _).after ⟨rfl, rfl, rfl, rfl, rfl, rfl⟩

theorem txSilent_handleFrame (s : LinkSession) (frame : McLinkFrame) :
    TxSilent s (handleFrame s frame).2 := by
  unfold handleFrame
  split_ifs
  · exact txSilent_handleHello s frame
  · exact txSilent_handleReset s frame
  · exact txSilent_handleDataC2m s frame
  · exact txSilent_queueControlFrame s _ (by decide) _ _ _
  · exact txSilent_queueControlFrame s _ (by decide) _ _ _
  · exact txSilent_queueError s _ _

theorem txSilent_mcLinkSessionReceiveBytes (s : LinkSession) (src : List UInt8) :
    TxSilent s (mcLinkSessionReceiveBytes s src).2 :=
  mcLinkSessionReceiveBytes_preserves (TxSilent s) (fun t parser h => h.andThen (sameTx_withParser t parser))
    (fun t frame h => h.trans (txSilent_handleFrame t frame)) s src (.refl s)

theorem txSilent_mcLinkSessionCreditConsumed (s : LinkSession) (consumedLen : ℕ) :
    TxSilent s (mcLinkSessionCreditConsumed s consumedLen) :=
  txSilent_queueAckC2m s 0

theorem txSilent_mcLinkSessionResetAfterError (s : LinkSession) (code detail : UInt8) :
    TxSilent s (mcLinkSessionResetAfterError s code detail).2 := by
  have h := txSilent_queueError s code detail
  unfold mcLinkSessionResetAfterError
  dsimp only
  split_ifs
  · exact (h.trans (txSilent_resetLinkStatePreservingControlTx _)).trans (txSilent_queueReady _)
  · exact h

theorem TxRel.enqueueData {s : LinkSession} {m : TxMux} (h : TxRel s m) {payload : List UInt8}
    (hlen : payload.length ≤ mcLinkMaxPayload)
    (hfree : (mcLinkFrameBytes mcLinkDataM2c s.txSeqNext s.rxSeqExpected payload).length ≤
      s.tx.free) :
    TxRel (s.enqueueData payload) (m.enqueue .data
      (mcLinkFrameBytes mcLinkDataM2c s.txSeqNext s.rxSeqExpected payload)) :=
  (h.enqueue (txFrame_data hlen _ _) hfree).congr
    ⟨rfl, rfl, rfl, rfl, rfl, rfl⟩

theorem txSilent_mcLinkSessionQueueServerTx (s : LinkSession) (serverTx : Ringbuf UInt8) :
    TxSilent s (mcLinkSessionQueueServerTx s serverTx).2.1 := by
  rcases mcLinkSessionQueueServerTx_cases s serverTx with
    h | h | ⟨n, payload, _, _, _, hlen, hmax, hfree, h⟩
  · rw [h]
    exact .refl s
  · rw [h]
    exact (sameTx_countError s).silent
  · rw [h]
    exact fun m hm => ⟨_, hm.enqueueData (hlen ▸ hmax) hfree, muxSilent_enqueue m _ _⟩

theorem txSilent_mcLinkSessionDropQueuedData (s : LinkSession) :
    TxSilent s (mcLinkSessionDropQueuedData s) :=
  fun m hm => ⟨m.forget .data, hm.dropQueuedData, muxSilent_forget m _⟩

theorem TxRel.nextFrameLen {s : LinkSession} {m : TxMux} (h : TxRel s m)
    (hidle : m.current = none) (q : TxQueue) :
    nextFrameLen (s.ring q) = (m.waiting q).head?.map List.length := by
  have hring := h.ring q
  have hwaiting := h.sound.waiting q
  rw [Firmware.nextFrameLen, hring]
  simp only [Mux.tailOf, hidle, Option.elim_none, List.nil_append]
  cases hw : m.waiting q with
  | nil => exact firstFrameLen_eq_none List.not_mem_nil
  | cons frame rest =>
    rw [hw] at hwaiting
    exact firstFrameLen_frame (hwaiting frame (by simp)).isLinkFrame.isFrame rest.flatten

theorem TxRel.start {s : LinkSession} {m : TxMux} (h : TxRel s m) (hidle : m.current = none)
    {q : TxQueue} {frame : List UInt8} {rest : List (List UInt8)}
    (hwaiting : m.waiting q = frame :: rest) (hfirst : q = .data → m.waiting .control = []) :
    TxRel { s with activeTxQueue := some q, activeTxRemaining := frame.length }
      { m with current := some (q, [], frame), waiting := Function.update m.waiting q rest } where
  run := h.run.tail (.start m q frame rest hidle hwaiting fun p hp => hp.1 ▸ hfirst hp.2)
  queued := h.queued
  active := rfl
  tail_ne_nil := by
    intro q' part tail hcurrent
    have hmem : frame ∈ m.waiting q := by simp [hwaiting]
    simp only [Option.some.injEq, Prod.mk.injEq] at hcurrent
    rw [← hcurrent.2.2]
    exact (h.sound.waiting q frame hmem).isLinkFrame.isFrame.ne_nil
  ring p := by
    have hp : (s.ring p).items = m.tailOf p ++ (m.waiting p).flatten := h.ring p
    have hring : LinkSession.ring
        { s with activeTxQueue := some q, activeTxRemaining := frame.length } p = s.ring p := by
      cases p <;> rfl
    rw [hring, hp]
    by_cases hq : p = q
    · subst hq
      simp [Mux.tailOf, hidle, hwaiting]
    · simp [Mux.tailOf, hidle, hq, Ne.symm hq]

theorem TxRel.select {s : LinkSession} {m : TxMux} (h : TxRel s m) (hidle : m.current = none) :
    ((∀ q, m.waiting q = []) ∧ selectActiveTx s = s) ∨
    ∃ q frame rest, m.waiting q = frame :: rest ∧ (q = .data → m.waiting .control = []) ∧
      selectActiveTx s =
        { s with activeTxQueue := some q, activeTxRemaining := frame.length } := by
  -- With no active frame a control frame is chosen, then a data frame, if there is one.
  have hnone := h.activeTxQueue_eq_none.mpr hidle
  have hcontrol := h.nextFrameLen hidle .control
  have hdata := h.nextFrameLen hidle .data
  simp only [LinkSession.ring] at hcontrol hdata
  rw [selectActiveTx, if_pos hnone, hcontrol, hdata]
  cases hc : m.waiting .control with
  | cons frame rest => exact .inr ⟨.control, frame, rest, hc, by simp, rfl⟩
  | nil =>
    cases hd : m.waiting .data with
    | cons frame rest => exact .inr ⟨.data, frame, rest, hd, fun _ => rfl, rfl⟩
    | nil =>
      refine .inl ⟨?_, rfl⟩
      rintro (_ | _)
      · exact hd
      · exact hc

theorem selectActiveTx_of_active (s : LinkSession) (h : s.activeTxQueue ≠ none) :
    selectActiveTx s = s :=
  if_neg h

theorem mcLinkSessionReadTx_none {s : LinkSession} (h : (selectActiveTx s).activeTxQueue = none)
    (maxLen : ℕ) :
    mcLinkSessionReadTx s maxLen = ([], if maxLen = 0 then s else selectActiveTx s) := by
  unfold mcLinkSessionReadTx
  split_ifs
  · rfl
  · simp only [h]

theorem mcLinkSessionReadTx_select {s : LinkSession}
    (h : (selectActiveTx s).activeTxQueue ≠ none) {maxLen : ℕ} (hmax : maxLen ≠ 0) :
    mcLinkSessionReadTx s maxLen = mcLinkSessionReadTx (selectActiveTx s) maxLen := by
  simp only [mcLinkSessionReadTx, if_neg hmax, selectActiveTx_of_active _ h]

/-- The session once `count` bytes of the active frame of `queue` went out. -/
def LinkSession.advance (s : LinkSession) (queue : TxQueue) (count : ℕ) : LinkSession :=
  { s.setRing queue ((s.ring queue).drop count) with
    activeTxRemaining := s.activeTxRemaining - count }

theorem TxRel.readTx_active {s : LinkSession} {m : TxMux} (h : TxRel s m) {q : TxQueue}
    {part tail : List UInt8} (hcurrent : m.current = some (q, part, tail)) {maxLen : ℕ}
    (hmax : maxLen ≠ 0) :
    mcLinkSessionReadTx s maxLen =
      (tail.take maxLen,
        if tail.length ≤ maxLen then clearActiveTx (s.advance q tail.length)
        else s.advance q maxLen) := by
  obtain ⟨hactive, hremaining⟩ := h.of_current hcurrent
  have hring := h.ring q
  rw [h.tailOf_of_current hcurrent] at hring
  have hpos : 0 < tail.length := List.length_pos_of_ne_nil (h.tail_ne_nil q part tail hcurrent)
  have hlen : tail.length ≤ (s.ring q).len := by
    simp only [Ringbuf.len, hring, List.length_append]
    omega
  have htake : (s.ring q).items.take (min tail.length maxLen) = tail.take maxLen := by
    rw [hring, List.take_append_of_le_length (Nat.min_le_left _ _)]
    by_cases hle : tail.length ≤ maxLen
    · rw [Nat.min_eq_left hle, List.take_of_length_le hle, List.take_length]
    · rw [Nat.min_eq_right (by omega)]
  have hcount : (tail.take maxLen).length = min tail.length maxLen := by
    rw [List.length_take, Nat.min_comm]
  simp only [mcLinkSessionReadTx, if_neg hmax,
    selectActiveTx_of_active s (by rw [hactive]; simp), hactive, hremaining,
    Ringbuf.fst_read, htake, hcount]
  rw [if_neg (by omega), if_neg (by omega)]
  by_cases hle : tail.length ≤ maxLen
  · rw [if_pos (by omega), if_pos hle, Nat.min_eq_left hle]
    simp only [LinkSession.advance, Ringbuf.drop, hremaining]
  · rw [if_neg (by omega), if_neg hle, Nat.min_eq_right (by omega)]
    simp only [LinkSession.advance, Ringbuf.drop, hremaining]

theorem items_ring_advance (s : LinkSession) (q p : TxQueue) (count : ℕ) :
    ((s.advance q count).ring p).items =
      if p = q then (s.ring q).items.drop count else (s.ring p).items := by
  cases p <;> cases q <;> rfl

theorem history_advance (s : LinkSession) (q : TxQueue) (count : ℕ) :
    (s.advance q count).history = s.history := by
  cases q <;> rfl

theorem activeTxQueue_advance (s : LinkSession) (q : TxQueue) (count : ℕ) :
    (s.advance q count).activeTxQueue = s.activeTxQueue := by
  cases q <;> rfl

theorem TxRel.advance {s : LinkSession} {m : TxMux} (h : TxRel s m) {q : TxQueue}
    {part : List UInt8} (now later : List UInt8) (hcurrent : m.current = some (q, part, now ++ later))
    (hlater : later ≠ []) :
    TxRel (s.advance q now.length) { m with current := some (q, part ++ now, later) } where
  run := h.run.tail (.emit m q part now later hcurrent)
  queued p := by
    rw [history_advance]
    exact h.queued p
  active := by
    obtain ⟨hactive, hremaining⟩ := h.of_current hcurrent
    have hcount : (s.advance q now.length).activeTxRemaining = later.length := by
      simp [LinkSession.advance, hremaining]
    simp [activeTxQueue_advance, hactive, hcount]
  tail_ne_nil := by
    intro q' part' tail' heq
    simp only [Option.some.injEq, Prod.mk.injEq] at heq
    exact heq.2.2 ▸ hlater
  ring p := by
    have hp := h.ring p
    rw [items_ring_advance]
    by_cases hq : p = q
    · subst hq
      rw [if_pos rfl, hp]
      simp [Mux.tailOf, hcurrent]
    · rw [if_neg hq, hp]
      simp [Mux.tailOf, hcurrent, Ne.symm hq]

theorem TxRel.finish {s : LinkSession} {m : TxMux} (h : TxRel s m) {q : TxQueue}
    {part tail : List UInt8} (hcurrent : m.current = some (q, part, tail)) :
    TxRel (clearActiveTx (s.advance q tail.length))
      { m with current := none, sent := m.sent ++ [(q, part ++ tail)] } where
  run := (h.run.tail (.emit m q part tail [] (by simp [hcurrent]))).tail (.finish _ q _ rfl)
  queued p := by
    change m.queued p = (s.advance q tail.length).history.queued p
    rw [history_advance]
    exact h.queued p
  active := rfl
  tail_ne_nil := by
    intro q' part' tail' heq
    exact absurd heq (by simp)
  ring p := by
    have hp := h.ring p
    have hring : (clearActiveTx (s.advance q tail.length)).ring p =
        (s.advance q tail.length).ring p := by
      cases p <;> rfl
    rw [hring, items_ring_advance]
    by_cases hq : p = q
    · subst hq
      rw [if_pos rfl, hp]
      simp [Mux.tailOf, hcurrent]
    · rw [if_neg hq, hp]
      simp [Mux.tailOf, hcurrent, Ne.symm hq]

/-- From `m` to `m'` the bytes `out` went out and no frame was queued or forgotten. -/
structure TxSends (m m' : TxMux) (out : List UInt8) : Prop where
  output : m'.output = m.output ++ out
  line : m.line <+: m'.line
  framesOf : ∀ q, m'.framesOf q = m.framesOf q

theorem TxSends.refl (m : TxMux) : TxSends m m [] :=
  ⟨(List.append_nil _).symm, List.prefix_rfl, fun _ => rfl⟩

theorem TxRel.readTx_current {s : LinkSession} {m : TxMux} (h : TxRel s m)
    (hbusy : m.current ≠ none) {maxLen : ℕ} (hmax : maxLen ≠ 0) :
    ∃ m', TxRel (mcLinkSessionReadTx s maxLen).2 m' ∧
      TxSends m m' (mcLinkSessionReadTx s maxLen).1 := by
  obtain ⟨⟨q, part, tail⟩, hcurrent⟩ := Option.ne_none_iff_exists'.mp hbusy
  rw [h.readTx_active hcurrent hmax]
  by_cases hle : tail.length ≤ maxLen
  · rw [if_pos hle]
    refine ⟨_, h.finish hcurrent, ?_, ?_, fun p => ?_⟩
    · simp [Mux.output, hcurrent, List.take_of_length_le hle]
    · simp [Mux.line, hcurrent]
    · simp [Mux.framesOf_eq, Mux.line, hcurrent]
  · have hlen : (tail.take maxLen).length = maxLen := by
      rw [List.length_take]
      omega
    have hlater : tail.drop maxLen ≠ [] := by
      intro hnil
      have := congrArg List.length hnil
      simp only [List.length_drop, List.length_nil] at this
      omega
    have hadvance := h.advance (tail.take maxLen) (tail.drop maxLen)
      (by rw [List.take_append_drop, hcurrent]) hlater
    rw [hlen] at hadvance
    rw [if_neg hle]
    refine ⟨_, hadvance, ?_, ?_, fun p => ?_⟩
    · simp [Mux.output, hcurrent]
    · simp [Mux.line, hcurrent]
    · simp [Mux.framesOf_eq, Mux.line, hcurrent]

/-- `read_tx` puts its bytes on the line. -/
theorem TxRel.readTx {s : LinkSession} {m : TxMux} (h : TxRel s m) (maxLen : ℕ) :
    ∃ m', TxRel (mcLinkSessionReadTx s maxLen).2 m' ∧
      TxSends m m' (mcLinkSessionReadTx s maxLen).1 := by
  by_cases hmax : maxLen = 0
  · refine ⟨m, ?_, ?_⟩
    · simpa [mcLinkSessionReadTx, hmax] using h
    · simpa [mcLinkSessionReadTx, hmax] using TxSends.refl m
  cases hidle : m.current with
  | some c => exact h.readTx_current (by simp [hidle]) hmax
  | none =>
    rcases h.select hidle with ⟨hempty, hselect⟩ | ⟨q, frame, rest, hwaiting, hfirst, hselect⟩
    · have hnone : (selectActiveTx s).activeTxQueue = none := by
        rw [hselect]
        exact h.activeTxQueue_eq_none.mpr hidle
      rw [mcLinkSessionReadTx_none hnone, if_neg hmax, hselect]
      exact ⟨m, h, .refl m⟩
    · have hstart := h.start hidle hwaiting hfirst
      rw [mcLinkSessionReadTx_select (by simp [hselect]) hmax, hselect]
      obtain ⟨m', hm', hsends⟩ := hstart.readTx_current (by simp) hmax
      refine ⟨m', hm', ?_, ?_, fun p => ?_⟩
      · simpa [Mux.output, hidle] using hsends.output
      · refine List.IsPrefix.trans ?_ hsends.line
        simp [Mux.line, hidle]
      · rw [hsends.framesOf p]
        by_cases hp : p = q
        · subst hp
          simp [Mux.framesOf_eq, Mux.line, hidle, hwaiting]
        · simp [Mux.framesOf_eq, Mux.line, hidle, hp, Ne.symm hp]

theorem TxRel.readTx_whole {s : LinkSession} {m : TxMux} (h : TxRel s m)
    (hidle : m.current = none) {maxLen : ℕ} (hmax : mcLinkMaxFrameLen ≤ maxLen) :
    ((∀ q, m.waiting q = []) ∧ mcLinkSessionReadTx s maxLen = ([], s)) ∨
    ∃ q frame rest, m.waiting q = frame :: rest ∧ (q = .data → m.waiting .control = []) ∧
      mcLinkSessionReadTx s maxLen =
        (frame, { s.setRing q ((s.ring q).drop frame.length) with
          activeTxQueue := none, activeTxRemaining := 0 }) ∧
      TxRel (mcLinkSessionReadTx s maxLen).2
        { m with
          current := none, sent := m.sent ++ [(q, frame)]
          waiting := Function.update m.waiting q rest } := by
  have hne : maxLen ≠ 0 := by
    simp only [mcLinkMaxFrameLen, mcLinkMaxEncodedLen] at hmax
    omega
  rcases h.select hidle with ⟨hempty, hselect⟩ | ⟨q, frame, rest, hwaiting, hfirst, hselect⟩
  · have hnone : (selectActiveTx s).activeTxQueue = none := by
      rw [hselect]
      exact h.activeTxQueue_eq_none.mpr hidle
    exact .inl ⟨hempty, by rw [mcLinkSessionReadTx_none hnone, if_neg hne, hselect]⟩
  · have hlen : frame.length ≤ maxLen :=
      Nat.le_trans (h.sound.waiting q frame (by simp [hwaiting])).isLinkFrame.length_le hmax
    have hstart := h.start hidle hwaiting hfirst
    have hread := hstart.readTx_active rfl hne
    rw [← hselect, ← mcLinkSessionReadTx_select (by simp [hselect]) hne, if_pos hlen,
      List.take_of_length_le hlen, hselect] at hread
    refine .inr ⟨q, frame, rest, hwaiting, hfirst, ?_, ?_⟩
    · rw [hread]
      cases q <;> rfl
    · rw [hread]
      exact hstart.finish rfl

end StarrySky.Firmware
