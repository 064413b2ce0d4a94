import StarrySky.Firmware.LinkTx
import StarrySky.Firmware.Main

/-! What the firmware sends is always well framed: over any run of session calls,
and over any run of the main loop with any short writes. -/

namespace StarrySky.Firmware
open StarrySky.Base StarrySky.Link

universe u
variable {σ : Type u}

/-- A call of the session, or a read of the receive ring it shares with the server. -/
inductive SessionOp
  | receiveBytes (src : List UInt8)
  | queueServerTx (serverTx : Ringbuf UInt8)
  | creditConsumed (consumedLen : ℕ)
  | resetAfterError (code detail : UInt8)
  | dropQueuedData
  | readTx (maxLen : ℕ)
  | readRx (maxLen : ℕ)

def sessionStep (s : LinkSession) : SessionOp → List UInt8 × LinkSession
  | .receiveBytes src => ([], (mcLinkSessionReceiveBytes s src).2)
  | .queueServerTx serverTx => ([], (mcLinkSessionQueueServerTx s serverTx).2.1)
  | .creditConsumed consumedLen => ([], mcLinkSessionCreditConsumed s consumedLen)
  | .resetAfterError code detail => ([], (mcLinkSessionResetAfterError s code detail).2)
  | .dropQueuedData => ([], mcLinkSessionDropQueuedData s)
  | .readTx maxLen => mcLinkSessionReadTx s maxLen
  | .readRx maxLen => ([], { s with rx := (s.rx.read maxLen).2 })

/-- A run of calls, and all bytes `read_tx` returned. -/
def sessionRun : LinkSession → List SessionOp → List UInt8 × LinkSession
  | s, [] => ([], s)
  | s, op :: ops =>
    let next := sessionStep s op
    let rest := sessionRun next.2 ops
    (next.1 ++ rest.1, rest.2)

theorem TxRel.sessionStep {s : LinkSession} {m : TxMux} (h : TxRel s m) (op : SessionOp) :
    ∃ m', TxRel (sessionStep s op).2 m' ∧ m'.output = m.output ++ (sessionStep s op).1 := by
  have hsilent : ∀ t, TxSilent s t → ∃ m', TxRel t m' ∧ m'.output = m.output ++ [] := by
    intro t ht
    obtain ⟨m', hm', hsilent⟩ := ht m h
    exact ⟨m', hm', by simp [Mux.output, hsilent.sent, hsilent.current]⟩
  cases op with
  | receiveBytes src => exact hsilent _ (txSilent_mcLinkSessionReceiveBytes s src)
  | queueServerTx serverTx => exact hsilent _ (txSilent_mcLinkSessionQueueServerTx s serverTx)
  | creditConsumed len => exact hsilent _ (txSilent_mcLinkSessionCreditConsumed s len)
  | resetAfterError code detail =>
    exact hsilent _ (txSilent_mcLinkSessionResetAfterError s code detail)
  | dropQueuedData => exact hsilent _ (txSilent_mcLinkSessionDropQueuedData s)
  | readTx maxLen =>
    obtain ⟨m', hm', hsends⟩ := h.readTx maxLen
    exact ⟨m', hm', hsends.output⟩
  | readRx maxLen => exact hsilent _ (sameTx_rx s _).silent

theorem TxRel.sessionRun {s : LinkSession} {m : TxMux} (h : TxRel s m) (ops : List SessionOp) :
    ∃ m', TxRel (sessionRun s ops).2 m' ∧ m'.output = m.output ++ (sessionRun s ops).1 := by
  induction ops generalizing s m with
  | nil => exact ⟨m, h, by simp [Firmware.sessionRun]⟩
  | cons op ops ih =>
    obtain ⟨m', hm', houtput⟩ := h.sessionStep op
    obtain ⟨m'', hm'', houtput'⟩ := ih hm'
    exact ⟨m'', hm'', by simp [Firmware.sessionRun, houtput', houtput]⟩

/-- Whole frames, then at most a proper part of one more. -/
def WellFramed (out : List UInt8) : Prop :=
  ∃ (sent : List (List UInt8)) (part frame : List UInt8), (∀ f ∈ sent, IsLinkFrame f) ∧
    IsLinkFrame frame ∧ part <+: frame ∧ part ≠ frame ∧ out = sent.flatten ++ part

theorem wellFramed_of_part {sent : List (List UInt8)} (part tail : List UInt8)
    (hsent : ∀ f ∈ sent, IsLinkFrame f) (hframe : IsLinkFrame (part ++ tail)) (htail : tail ≠ []) :
    WellFramed (sent.flatten ++ part) :=
  ⟨sent, part, part ++ tail, hsent, hframe, List.prefix_append _ _,
    fun heq => htail (List.self_eq_append_right.mp heq), rfl⟩

theorem wellFramed_flatten {sent : List (List UInt8)} (hsent : ∀ f ∈ sent, IsLinkFrame f) :
    WellFramed sent.flatten := by
  have hframe : IsLinkFrame (mcLinkFrameBytes 0 0 0 []) :=
    isLinkFrame_mcLinkFrameBytes (Nat.zero_le _) 0 0 0
  have := wellFramed_of_part [] _ hsent hframe hframe.isFrame.ne_nil
  rwa [List.append_nil] at this

theorem TxRel.wellFramed {s : LinkSession} {m : TxMux} (h : TxRel s m) : WellFramed m.output := by
  have hsent : ∀ f ∈ m.sent.map Prod.snd, IsLinkFrame f := by
    simp only [List.mem_map]
    rintro f ⟨c, hc, rfl⟩
    exact (h.sound.sent c hc).isLinkFrame
  cases hcurrent : m.current with
  | none =>
    simp only [Mux.output, hcurrent, Option.elim_none, List.append_nil]
    exact wellFramed_flatten hsent
  | some c =>
    simp only [Mux.output, hcurrent, Option.elim_some]
    exact wellFramed_of_part _ _ hsent (h.sound.current hcurrent).isLinkFrame
      (h.tail_ne_nil _ _ _ hcurrent)

def sentFrom (sent : List (TxQueue × List UInt8)) (queue : TxQueue) : List (List UInt8) :=
  (sent.filter (·.1 = queue)).map Prod.snd

theorem TxRel.sentFrom_sublist {s : LinkSession} {m : TxMux} (h : TxRel s m) (q : TxQueue) :
    (sentFrom m.sent q).Sublist (s.history.queued q) := by
  have := h.sound.inOrder q
  rw [h.queued q, Mux.framesOf, List.append_assoc] at this
  exact (List.sublist_append_left _ _).trans this

theorem TxRel.active_le {s : LinkSession} {m : TxMux} (h : TxRel s m) {q : TxQueue}
    (hactive : s.activeTxQueue = some q) :
    0 < s.activeTxRemaining ∧ s.activeTxRemaining ≤ (s.ring q).len := by
  obtain ⟨part, tail, hcurrent, hremaining⟩ := h.exists_current hactive
  have hpos := List.length_pos_of_ne_nil (h.tail_ne_nil q part tail hcurrent)
  rw [Ringbuf.len, h.ring q, h.tailOf_of_current hcurrent, hremaining, List.length_append]
  omega

theorem TxRel.selectActiveTx {s : LinkSession} {m : TxMux} (h : TxRel s m) :
    ∃ m', TxRel (selectActiveTx s) m' := by
  cases hidle : m.current with
  | some c =>
    have hactive : s.activeTxQueue ≠ none := by
      intro hnone
      rw [h.activeTxQueue_eq_none.mp hnone] at hidle
      contradiction
    exact ⟨m, by rwa [selectActiveTx_of_active s hactive]⟩
  | none =>
    rcases h.select hidle with ⟨_, hselect⟩ | ⟨q, frame, rest, hwaiting, hfirst, hselect⟩
    · exact ⟨m, by rwa [hselect]⟩
    · exact ⟨_, hselect ▸ h.start hidle hwaiting hfirst⟩

theorem TxRel.control_empty {s : LinkSession} {m : TxMux} (h : TxRel s m)
    (hnone : s.activeTxQueue = none)
    (hdata : (Firmware.selectActiveTx s).activeTxQueue = some .data) : s.controlTx.len = 0 := by
  have hidle := h.activeTxQueue_eq_none.mp hnone
  rcases h.select hidle with ⟨_, hselect⟩ | ⟨q, frame, rest, hwaiting, hfirst, hselect⟩
  · rw [hselect, hnone] at hdata
    contradiction
  · rw [hselect] at hdata
    have hring := h.ring .control
    rw [hfirst (Option.some.inj hdata)] at hring
    simp only [LinkSession.ring, Mux.tailOf, hidle, Option.elim_none, List.flatten_nil,
      List.append_nil] at hring
    rw [Ringbuf.len, hring]
    rfl

/-- No frame is active: all frames went out whole. -/
def TxIdle (s : LinkSession) : Prop := ∃ m, TxRel s m ∧ m.current = none

theorem TxIdle.silent {s t : LinkSession} (h : TxIdle s) (hst : TxSilent s t) : TxIdle t := by
  obtain ⟨m, hm, hidle⟩ := h
  obtain ⟨m', hm', hsilent⟩ := hst m hm
  exact ⟨m', hm', hsilent.current.trans hidle⟩

theorem TxIdle.activeTxQueue {s : LinkSession} (h : TxIdle s) : s.activeTxQueue = none := by
  obtain ⟨m, hm, hidle⟩ := h
  exact hm.activeTxQueue_eq_none.mpr hidle

/-- The frame was written to one of the transmit rings. -/
def WasQueued (s : LinkSession) (frame : List UInt8) : Prop := ∃ q, frame ∈ s.history.queued q

theorem WasQueued.txFrame {s : LinkSession} {frame : List UInt8} (h : WasQueued s frame)
    (hidle : TxIdle s) : ∃ q, frame ∈ s.history.queued q ∧ TxFrame q frame := by
  obtain ⟨q, hq⟩ := h
  obtain ⟨m, hm, _⟩ := hidle
  exact ⟨q, hq, hm.sound.queued q frame (hm.queued q ▸ hq)⟩

theorem WasQueued.isLinkFrame {s : LinkSession} {frame : List UInt8} (h : WasQueued s frame)
    (hidle : TxIdle s) : IsLinkFrame frame := by
  obtain ⟨q, _, hframe⟩ := h.txFrame hidle
  exact hframe.isLinkFrame

theorem WasQueued.silent {s t : LinkSession} {frame : List UInt8} (h : WasQueued s frame)
    (hidle : TxIdle s) (hst : TxSilent s t) : WasQueued t frame := by
  obtain ⟨q, hq⟩ := h
  obtain ⟨m, hm, _⟩ := hidle
  obtain ⟨m', hm', hsilent⟩ := hst m hm
  rw [← hm.queued q] at hq
  exact ⟨q, hm'.queued q ▸ (hsilent.queued q).subset hq⟩

theorem TxIdle.readTx {s : LinkSession} (h : TxIdle s) :
    TxIdle (mcLinkSessionReadTx s mcLinkTxPendingBytes).2 ∧
      (mcLinkSessionReadTx s mcLinkTxPendingBytes).2.history = s.history ∧
      ((mcLinkSessionReadTx s mcLinkTxPendingBytes).1 = [] ∨
        WasQueued s (mcLinkSessionReadTx s mcLinkTxPendingBytes).1) := by
  obtain ⟨m, hm, hidle⟩ := h
  rcases hm.readTx_whole hidle
      (show mcLinkMaxFrameLen ≤ mcLinkTxPendingBytes from Nat.le_refl _) with
    ⟨_, hread⟩ | ⟨q, frame, rest, hwaiting, _, hread, hrel⟩
  · rw [hread]
    exact ⟨⟨m, hm, hidle⟩, rfl, .inl rfl⟩
  · refine ⟨⟨_, hrel, rfl⟩, by rw [hread]; cases q <;> rfl, .inr ⟨q, ?_⟩⟩
    rw [hread, ← hm.queued q]
    refine (hm.sound.inOrder q).subset ?_
    rw [Mux.framesOf_eq, hwaiting]
    exact List.mem_append_right _ List.mem_cons_self

/-- Between the pumps no frame is active, and what is pending is a frame of which a
proper part is written. -/
structure MainFramed (m : Main σ) (wire : List UInt8) : Prop where
  idle : TxIdle m.session
  pending : m.linkPending = [] ∧ m.linkPendingPos = 0 ∨
    WasQueued m.session m.linkPending ∧ m.linkPendingPos < m.linkPending.length
  written : ∃ sent : List (List UInt8), (∀ f ∈ sent, WasQueued m.session f) ∧
    wire = sent.flatten ++ m.linkPending.take m.linkPendingPos

theorem MainFramed.wellFramed {m : Main σ} {wire : List UInt8} (h : MainFramed m wire) :
    WellFramed wire := by
  obtain ⟨sent, hsent, rfl⟩ := h.written
  replace hsent : ∀ f ∈ sent, IsLinkFrame f := fun f hf => (hsent f hf).isLinkFrame h.idle
  rcases h.pending with ⟨hnil, _⟩ | ⟨hframe, hpos⟩
  · simpa [hnil] using wellFramed_flatten hsent
  · replace hframe := hframe.isLinkFrame h.idle
    refine wellFramed_of_part _ (m.linkPending.drop m.linkPendingPos) hsent ?_ ?_
    · rwa [List.take_append_drop]
    · intro hnil
      have := congrArg List.length hnil
      simp only [List.length_drop, List.length_nil] at this
      omega

theorem MainFramed.silent {m : Main σ} {wire : List UInt8} (h : MainFramed m wire)
    {t : LinkSession} (hsession : TxSilent m.session t) (txRing : Ringbuf UInt8) (server : σ) :
    MainFramed { m with session := t, txRing := txRing, server := server } wire := by
  refine ⟨h.idle.silent hsession, ?_, ?_⟩
  · exact h.pending.imp_right fun hp => ⟨hp.1.silent h.idle hsession, hp.2⟩
  · obtain ⟨sent, hsent, hwire⟩ := h.written
    exact ⟨sent, fun f hf => (hsent f hf).silent h.idle hsession, hwire⟩

theorem MainFramed.dropStaleLinkTxData {m : Main σ} {wire : List UInt8} (h : MainFramed m wire) :
    MainFramed (dropStaleLinkTxData m) wire := by
  have hdrop := h.silent (txSilent_mcLinkSessionDropQueuedData m.session) m.txRing m.server
  unfold Firmware.dropStaleLinkTxData
  dsimp only
  split_ifs with hcond
  · refine ⟨hdrop.idle, .inl ⟨rfl, rfl⟩, ?_⟩
    obtain ⟨sent, hsent, hwire⟩ := hdrop.written
    simp only [hcond.1, List.take_zero] at hwire
    exact ⟨sent, hsent, by simpa using hwire⟩
  · exact hdrop

theorem MainFramed.resetConnection {ops : McServerOps σ} {m : Main σ} {wire : List UInt8}
    (h : MainFramed m wire) : MainFramed (resetConnection ops m) wire :=
  MainFramed.dropStaleLinkTxData
    (h.silent (sameTx_rx m.session _).silent _ _)

theorem MainFramed.receiveLink {ops : McServerOps σ} {m : Main σ} {wire : List UInt8}
    (h : MainFramed m wire) (buf : List UInt8) : MainFramed (receiveLink ops m buf) wire := by
  have hreceived := txSilent_mcLinkSessionReceiveBytes m.session buf
  unfold Firmware.receiveLink
  dsimp only
  split_ifs
  · exact h.silent hreceived _ _
  · exact MainFramed.resetConnection
      (h.silent (hreceived.andThen (sameTx_withParser _ _)) _ _)

theorem MainFramed.takeLinkReset {ops : McServerOps σ} {m : Main σ} {wire : List UInt8}
    (h : MainFramed m wire) : MainFramed (takeLinkReset ops m) wire := by
  have htaken : MainFramed { m with
      session := (mcLinkSessionTakeResetRequested m.session).2 } wire :=
    h.silent (sameTx_takeResetRequested m.session).silent _ _
  unfold Firmware.takeLinkReset
  dsimp only
  split_ifs
  · exact htaken.resetConnection
  · exact htaken

theorem MainFramed.pumpLinkRx {m : Main σ} {wire : List UInt8} (h : MainFramed m wire)
    (ops : McServerOps σ) (buf : List UInt8) : MainFramed (pumpLinkRx ops m buf) wire := by
  unfold Firmware.pumpLinkRx
  split_ifs
  · exact h
  · exact (h.receiveLink buf).takeLinkReset

theorem MainFramed.pumpServerTxReset {ops : McServerOps σ} {m : Main σ} {wire : List UInt8}
    (h : MainFramed m wire) : MainFramed (pumpServerTxReset ops m) wire := by
  unfold Firmware.pumpServerTxReset
  dsimp only
  split_ifs
  · exact MainFramed.dropStaleLinkTxData (h.silent (.refl _) _ _)
  · exact h.silent (.refl _) _ _

theorem MainFramed.pumpServerTick {ops : McServerOps σ} {m : Main σ} {wire : List UInt8}
    (h : MainFramed m wire) (nowTicks : UInt32) :
    MainFramed (pumpServerTick ops m nowTicks) wire :=
  MainFramed.pumpServerTxReset (h.silent (.refl _) _ _)

theorem MainFramed.pumpServer {m : Main σ} {wire : List UInt8} (h : MainFramed m wire)
    (ops : McServerOps σ) (nowTicks : UInt32) : MainFramed (pumpServer ops m nowTicks) wire := by
  have htaken : MainFramed (takeRxBytes m).2 wire := h.silent (sameTx_rx m.session _).silent _ _
  have hreceived : MainFramed (serverReceive ops (takeRxBytes m).2 (takeRxBytes m).1).2 wire :=
    htaken.silent (.refl _) _ _
  unfold Firmware.pumpServer
  dsimp only
  split_ifs
  · exact htaken.pumpServerTick nowTicks
  · exact MainFramed.resetConnection
      (hreceived.silent (txSilent_mcLinkSessionResetAfterError _ _ _) _ _)
  · exact MainFramed.pumpServerTick (MainFramed.pumpServerTxReset
      (hreceived.silent (txSilent_mcLinkSessionCreditConsumed _ _) _ _)) nowTicks

@[simp] theorem session_writePending (m : Main σ) (budget accepted : ℕ) :
    (writePending m budget accepted).2.session = m.session := rfl

theorem writePending_written (m : Main σ) (wire : List UInt8)
    (hpos : m.linkPendingPos ≤ m.linkPending.length) {P : List UInt8 → Prop}
    (hwritten : ∃ sent : List (List UInt8), (∀ f ∈ sent, P f) ∧
      wire = sent.flatten ++ m.linkPending.take m.linkPendingPos) (budget accepted : ℕ) :
    (writePending m budget accepted).2.linkPendingPos ≤ m.linkPending.length ∧
    ∃ sent : List (List UInt8), (∀ f ∈ sent, P f) ∧
      wire ++ (writePending m budget accepted).1 =
        sent.flatten ++ m.linkPending.take (writePending m budget accepted).2.linkPendingPos := by
  obtain ⟨sent, hsent, rfl⟩ := hwritten
  have hrest : (m.linkPending.drop m.linkPendingPos).length =
      m.linkPending.length - m.linkPendingPos := List.length_drop
  refine ⟨?_, sent, hsent, ?_⟩
  · simp only [writePending, hrest]
    omega
  · simp only [writePending]
    rw [List.append_assoc, ← List.take_add]

theorem written_clear {pending wire : List UInt8} {pos : ℕ} {P : List UInt8 → Prop}
    (hframe : P pending) (hpos : pending.length ≤ pos)
    (hwritten : ∃ sent : List (List UInt8), (∀ f ∈ sent, P f) ∧
      wire = sent.flatten ++ pending.take pos) :
    ∃ sent : List (List UInt8), (∀ f ∈ sent, P f) ∧ wire = sent.flatten := by
  obtain ⟨sent, hsent, rfl⟩ := hwritten
  refine ⟨sent ++ [pending], ?_, ?_⟩
  · intro f hf
    rcases List.mem_append.mp hf with hf | hf
    · exact hsent f hf
    · exact List.mem_singleton.mp hf ▸ hframe
  · simp [List.take_of_length_le hpos]

theorem MainFramed.pumpLinkTxNext {m : Main σ} {wire : List UInt8} (h : MainFramed m wire)
    (hnil : m.linkPending = []) (budget accepted : ℕ) :
    MainFramed (pumpLinkTxNext m budget accepted).2
      (wire ++ (pumpLinkTxNext m budget accepted).1) := by
  have hsilent := txSilent_mcLinkSessionQueueServerTx m.session m.txRing
  have hqueued := h.idle.silent hsilent
  obtain ⟨hidle, hhistory, hframe⟩ := hqueued.readTx
  have hkeep : ∀ f, WasQueued (mcLinkSessionQueueServerTx m.session m.txRing).2.1 f →
      WasQueued (mcLinkSessionReadTx (mcLinkSessionQueueServerTx m.session m.txRing).2.1
        mcLinkTxPendingBytes).2 f := by
    rintro f ⟨q, hq⟩
    exact ⟨q, hhistory.symm ▸ hq⟩
  obtain ⟨sent, hsent, hwire⟩ := h.written
  replace hsent := fun f hf => hkeep f ((hsent f hf).silent h.idle hsilent)
  have hpos : m.linkPendingPos = 0 := by
    rcases h.pending with ⟨_, hpos⟩ | ⟨hframe, _⟩
    · exact hpos
    · exact absurd hnil (hframe.isLinkFrame h.idle).isFrame.ne_nil
  rw [hnil, List.take_nil, List.append_nil] at hwire
  unfold Firmware.pumpLinkTxNext
  dsimp only
  by_cases hread : (mcLinkSessionReadTx (mcLinkSessionQueueServerTx m.session m.txRing).2.1
      mcLinkTxPendingBytes).1.length > 0
  · have hframe := hkeep _ (hframe.resolve_left (List.ne_nil_of_length_pos hread))
    rw [if_pos hread]
    obtain ⟨hle, hwritten⟩ := writePending_written
      { m with
        session := (mcLinkSessionReadTx (mcLinkSessionQueueServerTx m.session m.txRing).2.1
          mcLinkTxPendingBytes).2
        txRing := (mcLinkSessionQueueServerTx m.session m.txRing).2.2
        linkPending := (mcLinkSessionReadTx
          (mcLinkSessionQueueServerTx m.session m.txRing).2.1 mcLinkTxPendingBytes).1
        linkPendingPos := 0 }
      wire (Nat.zero_le _) ⟨sent, hsent, by simp [hwire]⟩ budget accepted
    split_ifs with hdone
    · exact ⟨hidle, .inl ⟨rfl, rfl⟩, by
        simpa [clearLinkPending] using written_clear hframe hdone hwritten⟩
    · exact ⟨hidle, .inr ⟨hframe, Nat.lt_of_not_le hdone⟩, hwritten⟩
  · rw [if_neg hread, List.append_nil]
    have hnil' := List.eq_nil_of_length_eq_zero (Nat.eq_zero_of_not_pos hread)
    exact ⟨hidle, .inl ⟨hnil', hpos⟩, sent, hsent, by simp [hnil', hwire]⟩

theorem MainFramed.pumpLinkTx {m : Main σ} {wire : List UInt8} (h : MainFramed m wire)
    (accepted₁ accepted₂ : ℕ) :
    MainFramed (pumpLinkTx m accepted₁ accepted₂).2
      (wire ++ (pumpLinkTx m accepted₁ accepted₂).1) := by
  unfold Firmware.pumpLinkTx
  by_cases hpos : m.linkPendingPos < m.linkPending.length
  · have hframe : WasQueued m.session m.linkPending := by
      rcases h.pending with ⟨hnil, _⟩ | ⟨hframe, _⟩
      · simp [hnil] at hpos
      · exact hframe
    obtain ⟨hle, hwritten⟩ := writePending_written m wire (Nat.le_of_lt hpos) h.written
      mcLinkTxMaxBytesPerLoop accepted₁
    rw [if_pos hpos]
    dsimp only
    by_cases hmore : (Firmware.writePending m mcLinkTxMaxBytesPerLoop accepted₁).2.linkPendingPos <
        (Firmware.writePending m mcLinkTxMaxBytesPerLoop accepted₁).2.linkPending.length
    · rw [if_pos hmore]
      exact ⟨h.idle, .inr ⟨hframe, hmore⟩, hwritten⟩
    · rw [if_neg hmore]
      have hcleared : MainFramed
          (clearLinkPending (Firmware.writePending m mcLinkTxMaxBytesPerLoop accepted₁).2)
          (wire ++ (Firmware.writePending m mcLinkTxMaxBytesPerLoop accepted₁).1) :=
        ⟨h.idle, .inl ⟨rfl, rfl⟩, by
          simpa [clearLinkPending] using written_clear hframe (Nat.le_of_not_lt hmore) hwritten⟩
      split_ifs
      · exact hcleared
      · rw [← List.append_assoc]
        exact hcleared.pumpLinkTxNext rfl _ accepted₂
  · rw [if_neg hpos]
    refine h.pumpLinkTxNext ?_ _ accepted₂
    rcases h.pending with ⟨hnil, _⟩ | ⟨_, hlt⟩
    · exact hnil
    · exact absurd hlt hpos

theorem mainFramed_mainBoot (ops : McServerOps σ) : MainFramed (mainBoot ops) [] :=
  MainFramed.resetConnection ⟨⟨.init, txRel_init _, rfl⟩, .inl ⟨rfl, rfl⟩, [], by simp, rfl⟩

theorem MainFramed.mainRun {m : Main σ} {wire : List UInt8} (h : MainFramed m wire)
    (ops : McServerOps σ) (inputs : List LoopInput) :
    MainFramed (mainRun ops m inputs).2 (wire ++ (mainRun ops m inputs).1) := by
  induction inputs generalizing m wire with
  | nil => simpa [Firmware.mainRun] using h
  | cons input inputs ih =>
    have hnext := ((h.pumpLinkRx ops input.buf).pumpServer ops input.nowTicks).pumpLinkTx input.accepted₁ input.accepted₂
    simpa [Firmware.mainRun, mainLoop] using ih hnext

/-- Firmware output is well framed. Over session calls in any order: whole frames and
at most a proper part of one more, each queue in its order; a data frame starts only
with no control frame queued; an active queue holds the bytes it announces. Over the
main loop with any server and any short writes: the bytes written are well framed. -/
theorem firmwareOutput_framed (ops : McServerOps σ) :
    (∀ (rx : Ringbuf UInt8) (calls : List SessionOp),
      ∃ (sent : List (TxQueue × List UInt8)) (part : List UInt8),
        (sessionRun (mcLinkSessionInit rx) calls).1 = (sent.map Prod.snd).flatten ++ part ∧
        (∀ f ∈ sent, IsLinkFrame f.2) ∧
        (∃ frame, IsLinkFrame frame ∧ part <+: frame ∧ part ≠ frame) ∧
        (∀ queue, (sentFrom sent queue).Sublist
          ((sessionRun (mcLinkSessionInit rx) calls).2.history.queued queue)) ∧
        ∀ s, s = (sessionRun (mcLinkSessionInit rx) calls).2 →
          (s.activeTxQueue = none → (selectActiveTx s).activeTxQueue = some .data →
            s.controlTx.len = 0) ∧
          ∀ queue, (selectActiveTx s).activeTxQueue = some queue →
            0 < (selectActiveTx s).activeTxRemaining ∧
            (selectActiveTx s).activeTxRemaining ≤ ((selectActiveTx s).ring queue).len) ∧
    ∀ inputs : List LoopInput, WellFramed (mainRun ops (mainBoot ops) inputs).1 := by
  refine ⟨fun rx calls => ?_, fun inputs => ?_⟩
  · obtain ⟨m, hm, houtput⟩ := (txRel_init rx).sessionRun calls
    have hout : (sessionRun (mcLinkSessionInit rx) calls).1 = m.output := by
      simpa [Mux.output, Mux.init] using houtput.symm
    obtain ⟨m', hm'⟩ := hm.selectActiveTx
    refine ⟨m.sent, m.current.elim [] fun c => c.2.1, hout, fun f hf => ?_, ?_,
      hm.sentFrom_sublist, ?_⟩
    · exact (hm.sound.sent f hf).isLinkFrame
    · cases hcurrent : m.current with
      | none =>
        have hframe : IsLinkFrame (mcLinkFrameBytes 0 0 0 []) :=
          isLinkFrame_mcLinkFrameBytes (Nat.zero_le _) 0 0 0
        exact ⟨_, hframe, List.nil_prefix, hframe.isFrame.ne_nil.symm⟩
      | some c =>
        refine ⟨c.2.1 ++ c.2.2, (hm.sound.current hcurrent).isLinkFrame, List.prefix_append _ _,
          fun heq => ?_⟩
        exact hm.tail_ne_nil _ _ _ hcurrent (List.self_eq_append_right.mp heq)
    · rintro s rfl
      exact ⟨hm.control_empty, fun queue hactive => hm'.active_le hactive⟩
  · have := (mainFramed_mainBoot ops).mainRun ops inputs
    exact this.wellFramed

end StarrySky.Firmware
