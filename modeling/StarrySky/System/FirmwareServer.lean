import StarrySky.Core.TxReset
import StarrySky.Firmware.M2cPayload
import StarrySky.System.M2cDelivery

/-! The firmware's main loop with the core as its server: what the data frames on the wire carry. -/

namespace StarrySky.System
open StarrySky.Base StarrySky.Link StarrySky.Core StarrySky.Firmware

def coreServer (cfg : McConfig) : McServerOps (McServer × List UInt8) where
  init := (mcServerInit cfg, [])
  receive s bytes ring :=
    let received := mcServerReceive cfg s.1 bytes { ring, history := s.2 }
    (received.1, (received.2.1, received.2.2.history), received.2.2.ring)
  tickAt s ring nowTicks :=
    let ticked := mcServerTickAt cfg s.1 { ring, history := s.2 } nowTicks
    (ticked.1, (ticked.2.1, ticked.2.2.history), ticked.2.2.ring)
  takeTxReset s := ((mcServerTakeTxReset s.1).1, (mcServerTakeTxReset s.1).2, s.2)

abbrev CoreMain := Main (McServer × List UInt8)

theorem exists_cut_parts {P : List UInt8 → Prop}
    (hP : ∀ part part', P part → part' <+: part → P part') {parts : List (List UInt8)}
    (hparts : ∀ part ∈ parts, P part) {line : List UInt8} (h : line <+: parts.flatten) :
    ∃ parts' : List (List UInt8), parts'.length = parts.length ∧ line = parts'.flatten ∧
      ∀ part ∈ parts', P part := by
  -- Parts of streams, cut off where a shorter line ends.
  induction parts generalizing line with
  | nil => exact ⟨[], rfl, List.prefix_nil.mp h, hparts⟩
  | cons part parts ih =>
    have hrest := fun p hp => hparts p (List.mem_cons_of_mem _ hp)
    have hfirst := hparts part List.mem_cons_self
    rw [List.flatten_cons] at h
    by_cases hlong : part.length ≤ line.length
    · -- the first part is whole
      obtain ⟨rest, rfl⟩ := List.prefix_of_prefix_length_le (List.prefix_append _ _) h hlong
      obtain ⟨parts', hlength, hline, hparts'⟩ :=
        ih hrest ((List.prefix_append_right_inj _).mp h)
      refine ⟨part :: parts', by rw [List.length_cons, hlength, List.length_cons], ?_, ?_⟩
      · rw [List.flatten_cons, hline]
      · intro p hp
        rcases List.mem_cons.mp hp with rfl | hp
        · exact hfirst
        · exact hparts' p hp
    · have hshort := List.prefix_of_prefix_length_le h (List.prefix_append _ _)
        (Nat.le_of_not_le hlong)
      refine ⟨line :: parts.map fun _ => [], by simp, by simp, ?_⟩
      intro p hp
      rcases List.mem_cons.mp hp with rfl | hp
      · exact hP part _ hfirst hshort
      · obtain ⟨q, hq, rfl⟩ := List.mem_map.mp hp
        exact hP q [] (hrest q hq) List.nil_prefix

theorem TxIdle.whole {s : LinkSession} (h : TxIdle s) :
    ∃ frames : List (List UInt8), s.tx.items = frames.flatten ∧
      ∀ frame ∈ frames, IsFrame mcLinkDelimiter frame := by
  obtain ⟨m, hm, hidle⟩ := h
  have hring : s.tx.items = m.tailOf .data ++ (m.waiting .data).flatten := hm.ring .data
  rw [Mux.tailOf, hidle, Option.elim_none, List.nil_append] at hring
  exact ⟨m.waiting .data, hring, fun frame hmem =>
    (hm.sound.waiting .data frame hmem).isLinkFrame.isFrame⟩

theorem linkTail_tx {s : LinkSession} (h : TxIdle s) : linkTail s.tx.items = [] := by
  obtain ⟨frames, hitems, hframes⟩ := TxIdle.whole h
  have htail := linkTail_flatten hframes List.not_mem_nil
  rw [List.append_nil] at htail
  rw [hitems, htail]

theorem payloads_queueServerTx {s : LinkSession} (h : TxIdle s) (serverTx : Ringbuf UInt8) :
    ∃ count, (mcLinkSessionQueueServerTx s serverTx).2.2 = serverTx.drop count ∧
      m2cPayloads (mcLinkSessionQueueServerTx s serverTx).2.1.tx.items =
        m2cPayloads s.tx.items ++ serverTx.items.take count := by
  have hnone : serverTx = serverTx.drop 0 := by
    apply Ringbuf.ext
    · rfl
    · rfl
  have htake : m2cPayloads s.tx.items = m2cPayloads s.tx.items ++ serverTx.items.take 0 := by
    rw [List.take_zero, List.append_nil]
  rcases mcLinkSessionQueueServerTx_cases s serverTx with
    hsent | hsent | ⟨n, payload, _, _, hpayload, hlen, hmax, hfree, hsent⟩
  · rw [hsent]
    exact ⟨0, hnone, htake⟩
  · rw [hsent]
    exact ⟨0, hnone, htake⟩
  · refine ⟨n, by rw [hsent], ?_⟩
    have hitems : (s.enqueueData payload).tx.items =
        s.tx.items ++ mcLinkFrameBytes mcLinkDataM2c s.txSeqNext s.rxSeqExpected payload :=
      (Ringbuf.write_of_le hfree).2
    rw [hsent, hitems, m2cPayloads_append, linkTail_tx h, List.nil_append,
      m2cPayloads_data (hlen ▸ hmax), hpayload]

theorem payloads_readTx {s : LinkSession} (h : TxIdle s) :
    m2cPayloads (mcLinkSessionReadTx s mcLinkTxPendingBytes).1 ++
        m2cPayloads (mcLinkSessionReadTx s mcLinkTxPendingBytes).2.tx.items =
      m2cPayloads s.tx.items := by
  have hnil : m2cPayloads [] = [] := m2cPayloads_of_notMem List.not_mem_nil
  obtain ⟨m, hm, hidle⟩ := h
  have hring : s.tx.items = m.tailOf .data ++ (m.waiting .data).flatten := hm.ring .data
  rcases hm.readTx_whole hidle
      (show mcLinkMaxFrameLen ≤ mcLinkTxPendingBytes from Nat.le_refl _) with
    ⟨_, hread⟩ | ⟨q, frame, rest, hwaiting, _, hread, hrel⟩
  · rw [hread, hnil]
    rfl
  · have hframe := hm.sound.waiting q frame (by simp [hwaiting])
    have hnext : (mcLinkSessionReadTx s mcLinkTxPendingBytes).2.tx.items =
        [] ++ (Function.update m.waiting q rest .data).flatten := hrel.ring .data
    rw [Mux.tailOf, hidle, Option.elim_none, List.nil_append] at hring
    rw [List.nil_append] at hnext
    have hfirst : (mcLinkSessionReadTx s mcLinkTxPendingBytes).1 = frame := by rw [hread]
    rw [hfirst, hnext, hring]
    cases q with
    | data =>
      have htail : linkTail frame = [] := by
        have := linkTail_frame hframe.isLinkFrame.isFrame []
        rwa [List.append_nil] at this
      rw [Function.update_self, hwaiting, List.flatten_cons, m2cPayloads_append frame, htail,
        List.nil_append]
    | control =>
      rw [Function.update_of_ne (by decide), m2cPayloads_control hframe, List.nil_append]

/-- The server's part of the main loop: since its ring was emptied last, what the data frames on
the wire and in the pending buffer carry, the data ring and the server's ring are all it enqueued.
Before that the frames carry beginnings of older streams. -/
structure MainServes (cfg : McConfig) (m : CoreMain) (wire : List UInt8)
    (earlier : List (List UInt8)) (part : List UInt8) : Prop where
  framed : MainFramed m wire
  served : Served cfg mcTxRingCap (part ++ m2cPayloads m.session.tx.items) m.server.1
    { ring := m.txRing, history := m.server.2 }
  handed : m2cPayloads (wire ++ m.linkPending.drop m.linkPendingPos) = earlier.flatten ++ part
  earlier_prefix : ∀ p ∈ earlier, ClientPrefix cfg p

variable {cfg : McConfig} {m : CoreMain} {wire : List UInt8} {earlier : List (List UInt8)}
  {part : List UInt8}

theorem MainServes.session (h : MainServes cfg m wire earlier part) {t : LinkSession}
    (hsilent : TxSilent m.session t) (htx : t.tx = m.session.tx) :
    MainServes cfg { m with session := t } wire earlier part := by
  refine ⟨h.framed.silent hsilent _ _, ?_, h.handed, h.earlier_prefix⟩
  dsimp only
  rw [htx]
  exact h.served

theorem tx_mcLinkSessionDropQueuedData {s : LinkSession} (h : TxIdle s) :
    (mcLinkSessionDropQueuedData s).tx.items = [] := by
  rw [mcLinkSessionDropQueuedData, h.activeTxQueue, if_neg (by simp)]
  rfl

/-- The stale frames go: what was handed on is cut behind the frames that have started. -/
theorem MainServes.restart (hcfg : cfg.protocolCompressionEnable = true)
    (h : MainServes cfg m wire earlier part) {t : LinkSession} (hsilent : TxSilent m.session t)
    (server : McServer × List UInt8) (txRing : Ringbuf UInt8)
    (hserved : Served cfg mcTxRingCap [] server.1 { ring := txRing, history := server.2 }) :
    ∃ earlier', earlier'.length = earlier.length + 1 ∧
      MainServes cfg (dropStaleLinkTxData { m with session := t, txRing, server }) wire earlier'
        [] := by
  have hframed := h.framed.silent hsilent txRing server
  have hidle : TxIdle t := hframed.idle
  have hdropped := tx_mcLinkSessionDropQueuedData hidle
  -- the pending frame may go too
  have hline : m2cPayloads (wire ++
      (dropStaleLinkTxData { m with session := t, txRing, server }).linkPending.drop
        (dropStaleLinkTxData { m with session := t, txRing, server }).linkPendingPos) <+:
      (earlier ++ [part]).flatten := by
    rw [List.flatten_append, List.flatten_singleton, ← h.handed]
    apply m2cPayloads_mono
    unfold dropStaleLinkTxData
    dsimp only
    split_ifs
    · rw [List.drop_zero]
      exact (List.prefix_append_right_inj _).mpr List.nil_prefix
    · exact List.prefix_rfl
  have hparts : ∀ p ∈ earlier ++ [part], ClientPrefix cfg p := by
    intro p hp
    rcases List.mem_append.mp hp with hp | hp
    · exact h.earlier_prefix p hp
    · rw [List.mem_singleton.mp hp]
      exact (h.served.clientPrefix hcfg).shorten (List.prefix_append _ _)
  obtain ⟨earlier', hlength, hhanded, hearlier⟩ :=
    exists_cut_parts (fun _ _ hpart hshort => hpart.shorten hshort) hparts hline
  refine ⟨earlier', ?_, hframed.dropStaleLinkTxData, ?_, ?_, hearlier⟩
  · rw [hlength, List.length_append, List.length_singleton]
  · have hitems : (dropStaleLinkTxData { m with session := t, txRing, server }).session.tx.items =
        [] := by
      unfold dropStaleLinkTxData
      dsimp only
      split_ifs
      · exact hdropped
      · exact hdropped
    have hnil : m2cPayloads [] = [] := m2cPayloads_of_notMem List.not_mem_nil
    have hserver : (dropStaleLinkTxData { m with session := t, txRing, server }).server = server ∧
        (dropStaleLinkTxData { m with session := t, txRing, server }).txRing = txRing := by
      unfold dropStaleLinkTxData
      dsimp only
      split_ifs
      · exact ⟨rfl, rfl⟩
      · exact ⟨rfl, rfl⟩
    rw [hitems, hnil, hserver.1, hserver.2]
    exact hserved
  · rw [hhanded, List.append_nil]

theorem MainServes.resetConnection (hcfg : cfg.protocolCompressionEnable = true)
    (h : MainServes cfg m wire earlier part) {t : LinkSession} (hsilent : TxSilent m.session t) :
    ∃ earlier', earlier'.length = earlier.length + 1 ∧
      MainServes cfg (resetConnection (coreServer cfg) { m with session := t }) wire earlier' [] :=
  h.restart hcfg (hsilent.andThen (sameTx_rx t (.init mcRxRingCap))) _ _
    (served_start cfg mcTxRingCap)

/-! What the pumps do. -/

/-- How often `pump_link_rx` resets the connection. -/
def linkRxResets {σ : Type} (m : Main σ) (buf : List UInt8) : ℕ :=
  if buf = [] then 0
  else
    (if (mcLinkSessionReceiveBytes m.session buf).1 then 0 else 1) +
      if (mcLinkSessionReceiveBytes m.session buf).2.resetRequested then 1 else 0

/-- How often `pump_server` resets the connection or drops the frames of an older stream. -/
def serverResets {σ : Type} (ops : McServerOps σ) (m : Main σ) : ℕ :=
  let taken := takeRxBytes m
  let received := serverReceive ops taken.2 taken.1
  if taken.1 = [] then 0
  else if !received.1 then 1
  else if (ops.takeTxReset received.2.server).1 then 1 else 0

theorem resetRequested_dropStaleLinkTxData {σ : Type} (m : Main σ) :
    (dropStaleLinkTxData m).session.resetRequested = m.session.resetRequested := by
  have hdrop : (mcLinkSessionDropQueuedData m.session).resetRequested =
      m.session.resetRequested := by
    unfold mcLinkSessionDropQueuedData
    split_ifs
    · rfl
    · dsimp only
      split_ifs <;> rfl
  unfold dropStaleLinkTxData
  dsimp only
  split_ifs
  · exact hdrop
  · exact hdrop

/-- The data ring is only cleared together with the connection. -/
def KeepsRing {σ : Type} (m : Main σ) (buf : List UInt8) : Prop :=
  linkRxResets m buf = 0 → (mcLinkSessionReceiveBytes m.session buf).2.tx = m.session.tx

theorem takeLinkReset_true {m : CoreMain} (h : m.session.resetRequested = true) :
    takeLinkReset (coreServer cfg) m = resetConnection (coreServer cfg)
      { m with session := (mcLinkSessionTakeResetRequested m.session).2 } := if_pos h

theorem takeLinkReset_false {m : CoreMain} (h : ¬m.session.resetRequested = true) :
    takeLinkReset (coreServer cfg) m =
      { m with session := (mcLinkSessionTakeResetRequested m.session).2 } := if_neg h

theorem MainServes.takeLinkReset (hcfg : cfg.protocolCompressionEnable = true)
    (h : MainServes cfg m wire earlier part) :
    ∃ earlier' part', earlier'.length = earlier.length +
        (if m.session.resetRequested then 1 else 0) ∧
      MainServes cfg (takeLinkReset (coreServer cfg) m) wire earlier' part' := by
  have hsilent := (sameTx_takeResetRequested m.session).silent
  by_cases hrequested : m.session.resetRequested = true
  · obtain ⟨earlier', hlength, hnext⟩ := h.resetConnection hcfg hsilent
    rw [takeLinkReset_true hrequested, if_pos hrequested]
    exact ⟨earlier', [], hlength, hnext⟩
  · rw [takeLinkReset_false hrequested, if_neg hrequested]
    exact ⟨earlier, part, rfl, h.session hsilent rfl⟩

theorem MainServes.pumpLinkRx (hcfg : cfg.protocolCompressionEnable = true)
    (h : MainServes cfg m wire earlier part) {buf : List UInt8} (hkeeps : KeepsRing m buf) :
    ∃ earlier' part', earlier'.length = earlier.length + linkRxResets m buf ∧
      MainServes cfg (pumpLinkRx (coreServer cfg) m buf) wire earlier' part' := by
  have hsilent := txSilent_mcLinkSessionReceiveBytes m.session buf
  rw [KeepsRing] at hkeeps
  rw [Firmware.pumpLinkRx]
  rw [linkRxResets] at hkeeps ⊢
  by_cases hnone : buf = []
  · rw [if_pos hnone, if_pos hnone]
    exact ⟨earlier, part, rfl, h⟩
  rw [if_neg hnone] at hkeeps
  rw [if_neg hnone, if_neg hnone, receiveLink]
  dsimp only
  by_cases hreceived : (mcLinkSessionReceiveBytes m.session buf).1 = true
  · rw [if_pos hreceived] at hkeeps
    rw [if_pos hreceived, if_pos hreceived, Nat.zero_add]
    by_cases hrequested : (mcLinkSessionReceiveBytes m.session buf).2.resetRequested = true
    · -- the session has dropped its frames, and the connection is reset
      obtain ⟨earlier', hlength, hnext⟩ :=
        h.resetConnection hcfg (hsilent.andThen (sameTx_takeResetRequested _))
      rw [if_pos hrequested, takeLinkReset_true hrequested]
      exact ⟨earlier', [], hlength, hnext⟩
    · rw [if_neg hrequested] at hkeeps
      exact (h.session hsilent (hkeeps rfl)).takeLinkReset hcfg
  · obtain ⟨earlier', hlength, hreset⟩ := h.resetConnection hcfg
      (hsilent.andThen (sameTx_withParser _ mcLinkParserInit))
    obtain ⟨earlier'', part'', hlength', hnext⟩ := hreset.takeLinkReset hcfg
    have hflag : (Firmware.resetConnection (coreServer cfg) { m with
        session := { (mcLinkSessionReceiveBytes m.session buf).2 with
          parser := mcLinkParserInit } }).session.resetRequested =
        (mcLinkSessionReceiveBytes m.session buf).2.resetRequested :=
      resetRequested_dropStaleLinkTxData _
    rw [if_neg hreceived, if_neg hreceived]
    rw [hflag, hlength, Nat.add_assoc] at hlength'
    exact ⟨earlier'', part'', hlength', hnext⟩

theorem pumpServerTxReset_true
    (h : (mcServerTakeTxReset m.server.1).1 = true) :
    pumpServerTxReset (coreServer cfg) m = dropStaleLinkTxData
      { m with server := ((mcServerTakeTxReset m.server.1).2, m.server.2) } := if_pos h

theorem pumpServerTxReset_false
    (h : (mcServerTakeTxReset m.server.1).1 = false) :
    pumpServerTxReset (coreServer cfg) m =
      { m with server := ((mcServerTakeTxReset m.server.1).2, m.server.2) } :=
  if_neg (ne_true_of_eq_false h)

theorem MainServes.pumpServerTick (h : MainServes cfg m wire earlier part) (nowTicks : UInt32) :
    MainServes cfg (pumpServerTick (coreServer cfg) m nowTicks) wire earlier part := by
  obtain ⟨hasked, hserved⟩ := (h.served.tickAt nowTicks).takeTxReset
  have hframed : MainFramed (Firmware.pumpServerTick (coreServer cfg) m nowTicks) wire :=
    h.framed.pumpServerTick nowTicks
  rw [Firmware.pumpServerTick, pumpServerTxReset_false (by exact hasked)] at hframed ⊢
  exact ⟨hframed, hserved, h.handed, h.earlier_prefix⟩

theorem MainServes.takeRxBytes (h : MainServes cfg m wire earlier part) :
    MainServes cfg (takeRxBytes m).2 wire earlier part :=
  h.session (sameTx_rx m.session _).silent rfl

theorem tx_mcLinkSessionCreditConsumed (s : LinkSession) (consumedLen : ℕ) :
    (mcLinkSessionCreditConsumed s consumedLen).tx = s.tx := by
  unfold mcLinkSessionCreditConsumed queueAckC2m queueControlFrame queueFrame
  dsimp only
  split
  · rfl
  · split_ifs <;> rfl

theorem pumpServer_receive {nowTicks : UInt32} {taken : List UInt8 × CoreMain}
    (htaken : takeRxBytes m = taken) (hne : taken.1 ≠ []) {received : CoreMain}
    (hreceived : (serverReceive (coreServer cfg) taken.2 taken.1).2 = received) :
    pumpServer (coreServer cfg) m nowTicks =
      if !(serverReceive (coreServer cfg) taken.2 taken.1).1 then
        resetConnection (coreServer cfg) { received with
          session := (mcLinkSessionResetAfterError received.session mcLinkErrProtocolState 0).2 }
      else Firmware.pumpServerTick (coreServer cfg) (pumpServerTxReset (coreServer cfg)
        { received with
          session := mcLinkSessionCreditConsumed received.session taken.1.length }) nowTicks := by
  subst htaken hreceived
  exact if_neg hne

theorem resetConnection_serverReceive {σ : Type} (ops : McServerOps σ) (m : Main σ)
    (bytes : List UInt8) (t : LinkSession) :
    resetConnection ops { (serverReceive ops m bytes).2 with session := t } =
      resetConnection ops { m with session := t } := by
  rw [resetConnection, resetConnection]
  rfl

theorem MainServes.pumpServer (hcfg : cfg.protocolCompressionEnable = true)
    (h : MainServes cfg m wire earlier part) (nowTicks : UInt32) :
    ∃ earlier' part', earlier'.length = earlier.length + serverResets (coreServer cfg) m ∧
      MainServes cfg (pumpServer (coreServer cfg) m nowTicks) wire earlier' part' := by
  have htaken := h.takeRxBytes
  rw [serverResets]
  generalize htake : Firmware.takeRxBytes m = taken at htaken ⊢
  by_cases hnone : taken.1 = []
  · rw [if_pos hnone, Firmware.pumpServer, htake, if_pos hnone]
    exact ⟨earlier, part, rfl, htaken.pumpServerTick nowTicks⟩
  generalize hreceive : (serverReceive (coreServer cfg) taken.2 taken.1).2 = received
  rw [if_neg hnone, pumpServer_receive htake hnone hreceive]
  subst hreceive
  have hserved := htaken.served.receive taken.1
  have hcredit := txSilent_mcLinkSessionCreditConsumed taken.2.session taken.1.length
  have herror := txSilent_mcLinkSessionResetAfterError taken.2.session mcLinkErrProtocolState 0
  by_cases haccepted : (serverReceive (coreServer cfg) taken.2 taken.1).1 = true
  · replace hserved := hserved haccepted
    rw [haccepted, Bool.not_true, if_neg Bool.false_ne_true, if_neg Bool.false_ne_true]
    cases hreset : ((coreServer cfg).takeTxReset
        (serverReceive (coreServer cfg) taken.2 taken.1).2.server).1 with
    | true =>
      rw [if_pos rfl, pumpServerTxReset_true (by exact hreset)]
      rw [if_pos (by exact hreset)] at hserved
      obtain ⟨earlier', hlength, hnext⟩ := htaken.restart hcfg hcredit
        ((coreServer cfg).takeTxReset
          (serverReceive (coreServer cfg) taken.2 taken.1).2.server).2
        (serverReceive (coreServer cfg) taken.2 taken.1).2.txRing hserved
      exact ⟨earlier', [], hlength, hnext.pumpServerTick nowTicks⟩
    | false =>
      rw [if_neg Bool.false_ne_true, pumpServerTxReset_false (by exact hreset)]
      rw [if_neg (by exact ne_true_of_eq_false hreset)] at hserved
      refine ⟨earlier, part, rfl, MainServes.pumpServerTick ?_ nowTicks⟩
      refine ⟨htaken.framed.silent hcredit _ _, ?_, htaken.handed, htaken.earlier_prefix⟩
      dsimp only
      rw [tx_mcLinkSessionCreditConsumed]
      exact hserved
  · obtain ⟨earlier', hlength, hnext⟩ := htaken.resetConnection hcfg herror
    rw [Bool.eq_false_iff.mpr haccepted, Bool.not_false, if_pos rfl, if_pos rfl,
      resetConnection_serverReceive]
    exact ⟨earlier', [], hlength, hnext⟩

/-! What the writes take is gone from the pending buffer. -/

theorem writePending_line {σ : Type} (m : Main σ) (budget accepted : ℕ) :
    (writePending m budget accepted).1 ++ (writePending m budget accepted).2.linkPending.drop
      (writePending m budget accepted).2.linkPendingPos = m.linkPending.drop m.linkPendingPos := by
  unfold writePending
  dsimp only
  rw [← List.drop_drop, List.take_append_drop]

theorem pumpLinkTxNext_session {σ : Type} (m : Main σ) (budget accepted : ℕ) :
    (pumpLinkTxNext m budget accepted).2.session =
        (mcLinkSessionReadTx (mcLinkSessionQueueServerTx m.session m.txRing).2.1
          mcLinkTxPendingBytes).2 ∧
      (pumpLinkTxNext m budget accepted).2.txRing =
        (mcLinkSessionQueueServerTx m.session m.txRing).2.2 ∧
      (pumpLinkTxNext m budget accepted).2.server = m.server := by
  unfold pumpLinkTxNext
  dsimp only
  split_ifs
  · exact ⟨rfl, rfl, rfl⟩
  · exact ⟨rfl, rfl, rfl⟩
  · exact ⟨rfl, rfl, rfl⟩

theorem pumpLinkTxNext_line {σ : Type} (m : Main σ) (budget accepted : ℕ) :
    (pumpLinkTxNext m budget accepted).1 ++ (pumpLinkTxNext m budget accepted).2.linkPending.drop
        (pumpLinkTxNext m budget accepted).2.linkPendingPos =
      (mcLinkSessionReadTx (mcLinkSessionQueueServerTx m.session m.txRing).2.1
        mcLinkTxPendingBytes).1 := by
  unfold pumpLinkTxNext
  dsimp only
  split_ifs with hread hdone
  · -- the frame is written whole
    have hline := writePending_line { m with
      session := (mcLinkSessionReadTx (mcLinkSessionQueueServerTx m.session m.txRing).2.1
        mcLinkTxPendingBytes).2
      txRing := (mcLinkSessionQueueServerTx m.session m.txRing).2.2
      linkPending := (mcLinkSessionReadTx (mcLinkSessionQueueServerTx m.session m.txRing).2.1
        mcLinkTxPendingBytes).1
      linkPendingPos := 0 } budget accepted
    rw [List.drop_eq_nil_of_le hdone, List.drop_zero] at hline
    exact hline
  · exact (writePending_line _ budget accepted).trans List.drop_zero
  · have hnone := List.eq_nil_of_length_eq_zero (Nat.eq_zero_of_not_pos hread)
    rw [hnone, List.drop_nil, List.append_nil]

theorem linkTail_wire {m : CoreMain} (h : MainFramed m wire) (hnil : m.linkPending = []) :
    linkTail wire = [] := by
  obtain ⟨sent, hsent, hwire⟩ := h.written
  rw [hnil, List.take_nil] at hwire
  rw [hwire]
  exact linkTail_flatten (fun f hf => ((hsent f hf).isLinkFrame h.idle).isFrame) List.not_mem_nil

theorem MainServes.pumpLinkTxNext (h : MainServes cfg m wire earlier part)
    (hnil : m.linkPending = []) (budget accepted : ℕ) :
    ∃ part', MainServes cfg (pumpLinkTxNext m budget accepted).2
      (wire ++ (pumpLinkTxNext m budget accepted).1) earlier part' := by
  have hframed := h.framed.pumpLinkTxNext hnil budget accepted
  obtain ⟨hsession, htxRing, hserver⟩ := pumpLinkTxNext_session m budget accepted
  have hline := pumpLinkTxNext_line m budget accepted
  obtain ⟨count, hdrop, hpayloads⟩ := payloads_queueServerTx h.framed.idle m.txRing
  have hidle := h.framed.idle.silent (txSilent_mcLinkSessionQueueServerTx m.session m.txRing)
  have hread := payloads_readTx hidle
  have hhanded := h.handed
  rw [hnil, List.drop_nil, List.append_nil] at hhanded
  refine ⟨part ++ m2cPayloads (mcLinkSessionReadTx
    (mcLinkSessionQueueServerTx m.session m.txRing).2.1 mcLinkTxPendingBytes).1,
    hframed, ?_, ?_, h.earlier_prefix⟩
  · rw [hsession, htxRing, hserver, hdrop, List.append_assoc, hread, hpayloads,
      ← List.append_assoc]
    exact h.served.drain count
  · rw [List.append_assoc, hline, m2cPayloads_append, linkTail_wire h.framed hnil, hhanded,
      List.nil_append, List.append_assoc]

theorem mainServes_clearLinkPending (h : MainServes cfg m wire earlier part)
    (hpos : m.linkPendingPos < m.linkPending.length) {budget accepted : ℕ}
    (hwritten : (writePending m budget accepted).2.linkPending.length ≤
      (writePending m budget accepted).2.linkPendingPos) :
    MainServes cfg (clearLinkPending (writePending m budget accepted).2)
      (wire ++ (writePending m budget accepted).1) earlier part := by
  have hline := writePending_line m budget accepted
  rw [List.drop_eq_nil_of_le hwritten, List.append_nil] at hline
  have hhanded := h.handed
  have hframe : WasQueued m.session m.linkPending := by
    rcases h.framed.pending with ⟨hnil, _⟩ | ⟨hframe, _⟩
    · rw [hnil] at hpos
      cases hpos
    · exact hframe
  obtain ⟨_, hsent⟩ := Firmware.writePending_written m wire (Nat.le_of_lt hpos) h.framed.written
    budget accepted
  refine ⟨⟨h.framed.idle, .inl ⟨rfl, rfl⟩, ?_⟩, h.served, ?_, h.earlier_prefix⟩
  · obtain ⟨sent, hsent, hwire⟩ := written_clear hframe hwritten hsent
    exact ⟨sent, hsent, by rw [hwire]; exact (List.append_nil _).symm⟩
  · rw [hline]
    exact (congrArg m2cPayloads (List.append_nil _)).trans hhanded

theorem MainServes.pumpLinkTx (h : MainServes cfg m wire earlier part) (accepted₁ accepted₂ : ℕ) :
    ∃ part', MainServes cfg (pumpLinkTx m accepted₁ accepted₂).2
      (wire ++ (pumpLinkTx m accepted₁ accepted₂).1) earlier part' := by
  have hframed := h.framed.pumpLinkTx accepted₁ accepted₂
  unfold Firmware.pumpLinkTx at hframed ⊢
  by_cases hpos : m.linkPendingPos < m.linkPending.length
  · rw [if_pos hpos] at hframed ⊢
    dsimp only at hframed ⊢
    by_cases hmore : (writePending m mcLinkTxMaxBytesPerLoop accepted₁).2.linkPendingPos <
        (writePending m mcLinkTxMaxBytesPerLoop accepted₁).2.linkPending.length
    · rw [if_pos hmore] at hframed ⊢
      refine ⟨part, hframed, h.served, ?_, h.earlier_prefix⟩
      rw [List.append_assoc, writePending_line, h.handed]
    · -- the pending frame is written whole
      have hcleared := mainServes_clearLinkPending h hpos (Nat.le_of_not_lt hmore)
      rw [if_neg hmore]
      split_ifs
      · exact ⟨part, hcleared⟩
      · rw [← List.append_assoc]
        exact hcleared.pumpLinkTxNext rfl _ accepted₂
  · rw [if_neg hpos]
    apply h.pumpLinkTxNext
    rcases h.framed.pending with ⟨hnil, _⟩ | ⟨_, hlt⟩
    · exact hnil
    · exact absurd hlt hpos

/-! Runs of the loop. -/

def loopResets {σ : Type} (ops : McServerOps σ) (m : Main σ) (input : LoopInput) : ℕ :=
  linkRxResets m input.buf + serverResets ops (pumpLinkRx ops m input.buf)

def resetsIn {σ : Type} (ops : McServerOps σ) : Main σ → List LoopInput → ℕ
  | _, [] => 0
  | m, input :: inputs => loopResets ops m input + resetsIn ops (mainLoop ops m input).2 inputs

/-- In no turn a HELLO clears the data ring without a RESET. -/
def KeepsData {σ : Type} (ops : McServerOps σ) : Main σ → List LoopInput → Prop
  | _, [] => True
  | m, input :: inputs => KeepsRing m input.buf ∧ KeepsData ops (mainLoop ops m input).2 inputs

theorem MainServes.mainLoop (hcfg : cfg.protocolCompressionEnable = true)
    (h : MainServes cfg m wire earlier part) {input : LoopInput} (hkeeps : KeepsRing m input.buf) :
    ∃ earlier' part', earlier'.length = earlier.length + loopResets (coreServer cfg) m input ∧
      MainServes cfg (mainLoop (coreServer cfg) m input).2
        (wire ++ (mainLoop (coreServer cfg) m input).1) earlier' part' := by
  obtain ⟨earlier₁, part₁, hlength₁, hrx⟩ := h.pumpLinkRx hcfg hkeeps
  obtain ⟨earlier₂, part₂, hlength₂, hserver⟩ := hrx.pumpServer hcfg input.nowTicks
  obtain ⟨part₃, htx⟩ := hserver.pumpLinkTx input.accepted₁ input.accepted₂
  refine ⟨earlier₂, part₃, ?_, htx⟩
  rw [hlength₂, hlength₁, loopResets, Nat.add_assoc]

theorem MainServes.mainRun (hcfg : cfg.protocolCompressionEnable = true)
    (h : MainServes cfg m wire earlier part) (inputs : List LoopInput)
    (hkeeps : KeepsData (coreServer cfg) m inputs) :
    ∃ earlier' part', earlier'.length = earlier.length + resetsIn (coreServer cfg) m inputs ∧
      MainServes cfg (mainRun (coreServer cfg) m inputs).2
        (wire ++ (mainRun (coreServer cfg) m inputs).1) earlier' part' := by
  induction inputs generalizing m wire earlier part with
  | nil =>
    refine ⟨earlier, part, rfl, ?_⟩
    rw [Firmware.mainRun, List.append_nil]
    exact h
  | cons input inputs ih =>
    obtain ⟨hring, hrest⟩ := hkeeps
    obtain ⟨earlier₁, part₁, hlength₁, hturn⟩ := h.mainLoop hcfg hring
    obtain ⟨earlier₂, part₂, hlength₂, hrun⟩ := ih hturn hrest
    refine ⟨earlier₂, part₂, ?_, ?_⟩
    · rw [hlength₂, hlength₁, resetsIn, Nat.add_assoc]
    · rw [List.append_assoc] at hrun
      exact hrun

theorem mainServes_mainBoot (cfg : McConfig) :
    MainServes cfg (mainBoot (coreServer cfg)) [] [] [] := by
  have hnil : m2cPayloads [] = [] := m2cPayloads_of_notMem List.not_mem_nil
  refine ⟨mainFramed_mainBoot _, ?_, ?_, ?_⟩
  · have hitems : (mainBoot (coreServer cfg)).session.tx.items = [] := rfl
    rw [hitems, hnil]
    exact served_start cfg mcTxRingCap
  · exact hnil
  · intro p hp
    cases hp

/-- The main loop over the core, with any bytes read, any times and any short writes. What its data
frames carry falls into as many parts as there were resets, and one more: every part is the
beginning of a stream that a client decodes into packets of the server, and the last part, the data
ring and the server's ring are together all the server enqueued since it emptied its ring. -/
theorem mainRun_m2cPayloads (cfg : McConfig) (hcfg : cfg.protocolCompressionEnable = true)
    (inputs : List LoopInput)
    (hkeeps : KeepsData (coreServer cfg) (mainBoot (coreServer cfg)) inputs) :
    let run := mainRun (coreServer cfg) (mainBoot (coreServer cfg)) inputs
    ∃ (earlier : List (List UInt8)) (part : List UInt8),
      m2cPayloads (run.1 ++ run.2.linkPending.drop run.2.linkPendingPos) =
        earlier.flatten ++ part ∧
      earlier.length = resetsIn (coreServer cfg) (mainBoot (coreServer cfg)) inputs ∧
      (∀ p ∈ earlier, ClientPrefix cfg p) ∧
      part ++ m2cPayloads run.2.session.tx.items ++ run.2.txRing.items = run.2.server.2 ∧
      ∃ frames, clientDecode run.2.server.2 = some frames ∧ ∀ frame ∈ frames, frame.Known cfg := by
  intro run
  obtain ⟨earlier, part, hlength, hrun⟩ := (mainServes_mainBoot cfg).mainRun hcfg inputs hkeeps
  rw [List.length_nil, Nat.zero_add] at hlength
  exact ⟨earlier, part, hrun.handed, hlength, hrun.earlier_prefix, hrun.served.items,
    hrun.served.decoded hcfg⟩

/-- A data frame with a handshake and a login start. -/
def loginFrame : List UInt8 :=
  mcLinkFrameBytes mcLinkDataC2m 0 0
    ([0x0f, 0x00, 0x2f, 0x09] ++ [0x6c, 0x6f, 0x63, 0x61, 0x6c, 0x68, 0x6f, 0x73, 0x74] ++
      [0x63, 0xdd, 0x02] ++ [0x07, 0x00, 0x05, 0x53, 0x74, 0x65, 0x76, 0x65])

theorem length_loginFrame_le : loginFrame.length ≤ mcTickBudgetRxBytes := by
  decide +kernel

def loginTurn : LoopInput where
  buf := loginFrame
  buf_length_le := length_loginFrame_le
  nowTicks := 1
  accepted₁ := 512
  accepted₂ := 512

theorem tx_receiveBytes_loginFrame :
    (mcLinkSessionReceiveBytes (mcLinkSessionInit (.init mcRxRingCap)) loginFrame).2.tx =
      .init mcLinkSessionTxCap := by
  decide +kernel

/-- The first turn after a client's login arrived. -/
theorem mainRun_m2cPayloads_login :
    let run := mainRun (coreServer compressionConfig) (mainBoot (coreServer compressionConfig))
      [loginTurn]
    ∃ (earlier : List (List UInt8)) (part : List UInt8),
      m2cPayloads (run.1 ++ run.2.linkPending.drop run.2.linkPendingPos) =
        earlier.flatten ++ part ∧
      earlier.length =
        resetsIn (coreServer compressionConfig) (mainBoot (coreServer compressionConfig))
          [loginTurn] ∧
      (∀ p ∈ earlier, ClientPrefix compressionConfig p) ∧
      part ++ m2cPayloads run.2.session.tx.items ++ run.2.txRing.items = run.2.server.2 ∧
      ∃ frames, clientDecode run.2.server.2 = some frames ∧
        ∀ frame ∈ frames, frame.Known compressionConfig :=
  mainRun_m2cPayloads compressionConfig rfl [loginTurn]
    ⟨fun _ => tx_receiveBytes_loginFrame, trivial⟩

end StarrySky.System
