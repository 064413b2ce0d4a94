import StarrySky.Firmware.Framing
import StarrySky.Link.ParserStream

/-! The server's bytes on their way to the bridge: from the server's ring through the data
ring into the frames read out. No byte is lost, doubled or moved past another. -/

namespace StarrySky.Firmware
open StarrySky.Base StarrySky.Link

def m2cPayload (frame : McLinkFrame) : List UInt8 :=
  if frame.type = mcLinkDataM2c then frame.payload else []

/-- The payloads of the complete `DATA_M2C` frames of a stream. -/
def m2cPayloads (stream : List UInt8) : List UInt8 := (linkFrames stream).flatMap m2cPayload

theorem m2cPayloads_of_notMem {stream : List UInt8} (h : mcLinkDelimiter ∉ stream) :
    m2cPayloads stream = [] := by
  rw [m2cPayloads, linkFrames_of_notMem h, List.flatMap_nil]

theorem m2cPayloads_append (xs ys : List UInt8) :
    m2cPayloads (xs ++ ys) = m2cPayloads xs ++ m2cPayloads (linkTail xs ++ ys) := by
  rw [m2cPayloads, linkFrames_append, List.flatMap_append]
  rfl

theorem linkTail_flatten {frames : List (List UInt8)}
    (h : ∀ frame ∈ frames, IsFrame mcLinkDelimiter frame) {rest : List UInt8}
    (hrest : mcLinkDelimiter ∉ rest) : linkTail (frames.flatten ++ rest) = rest := by
  rw [linkTail, cutFrames_flatten h hrest]

theorem linkFrames_mcLinkFrameBytes {payload : List UInt8}
    (hlen : payload.length ≤ mcLinkMaxPayload) (type : UInt8) (seq ack : UInt16) :
    linkFrames (mcLinkFrameBytes type seq ack payload) =
      [{ type := type, flags := 0, seq := seq, ack := ack, payload := payload }] := by
  have hframe := isFrame_mcLinkFrameBytes type seq ack payload
  have hone := linkFrames_frame hframe []
  rw [List.append_nil, linkSegment_of_le (length_mcLinkFrameBytes_le hlen type seq ack),
    mcLinkDecodeFrame_mcLinkFrameBytes hlen] at hone
  exact hone

theorem m2cPayloads_data {payload : List UInt8} (hlen : payload.length ≤ mcLinkMaxPayload)
    (seq ack : UInt16) :
    m2cPayloads (mcLinkFrameBytes mcLinkDataM2c seq ack payload) = payload := by
  rw [m2cPayloads, linkFrames_mcLinkFrameBytes hlen, List.flatMap_singleton]
  exact if_pos rfl

theorem m2cPayloads_control {frame : List UInt8} (h : TxFrame .control frame) :
    m2cPayloads frame = [] := by
  obtain ⟨type, seq, ack, payload, htype, hencode⟩ := h
  obtain ⟨hlen, rfl⟩ := mcLinkEncode_eq_some hencode
  rw [m2cPayloads, linkFrames_mcLinkFrameBytes hlen, List.flatMap_singleton]
  exact if_neg htype

theorem m2cPayloads_flatten {frames : List (List UInt8)}
    (h : ∀ frame ∈ frames, IsFrame mcLinkDelimiter frame) {rest : List UInt8}
    (hrest : mcLinkDelimiter ∉ rest) :
    m2cPayloads (frames.flatten ++ rest) = frames.flatMap m2cPayloads := by
  induction frames with
  | nil => exact m2cPayloads_of_notMem hrest
  | cons frame frames ih =>
    have hframe := h frame List.mem_cons_self
    have htail : linkTail frame = [] := by
      have := linkTail_frame hframe []
      rw [List.append_nil] at this
      exact this
    rw [List.flatten_cons, List.append_assoc, m2cPayloads_append, htail, List.nil_append,
      ih fun f hf => h f (List.mem_cons_of_mem _ hf), List.flatMap_cons]

theorem flatMap_m2cPayloads_line {line : List (TxQueue × List UInt8)}
    (h : ∀ c ∈ line, TxFrame c.1 c.2) :
    (line.map Prod.snd).flatMap m2cPayloads =
      ((line.filter (·.1 = .data)).map Prod.snd).flatMap m2cPayloads := by
  -- On the line only the data frames carry server bytes.
  induction line with
  | nil => rfl
  | cons c line ih =>
    have hline := ih fun c' hc' => h c' (List.mem_cons_of_mem _ hc')
    obtain ⟨q, frame⟩ := c
    cases q with
    | data =>
      rw [List.filter_cons_of_pos (by simp), List.map_cons, List.map_cons, List.flatMap_cons,
        List.flatMap_cons, hline]
    | control =>
      have hframe := m2cPayloads_control (h _ List.mem_cons_self)
      rw [List.filter_cons_of_neg (by simp), List.map_cons, List.flatMap_cons, hframe, hline,
        List.nil_append]

theorem mcLinkSessionQueueServerTx_failed {s : LinkSession} {serverTx : Ringbuf UInt8} :
    (mcLinkSessionQueueServerTx s serverTx).1 = false →
      (mcLinkSessionQueueServerTx s serverTx).2 = (s, serverTx) ∨
        (mcLinkSessionQueueServerTx s serverTx).2 = (s.countError, serverTx) := by
  unfold mcLinkSessionQueueServerTx
  dsimp only
  split_ifs with hready hzero
  · exact fun _ => .inl rfl
  · intro h
    cases h
  · cases peekRingbuf serverTx (serverTxLen s serverTx) with
    | none => exact fun _ => .inl rfl
    | some payload =>
      dsimp only
      rw [queueDataFrame, queueFrame_eq]
      by_cases hroom : payload.length ≤ mcLinkMaxPayload ∧
          (mcLinkFrameBytes mcLinkDataM2c s.txSeqNext s.rxSeqExpected payload).length ≤
            (s.ring .data).free
      · rw [if_pos hroom, if_pos rfl]
        intro h
        cases h
      · rw [if_neg hroom, if_neg Bool.false_ne_true]
        exact fun _ => .inr rfl

/-- The session and the server's ring, with all bytes read out and all bytes enqueued. -/
structure M2cState where
  session : LinkSession
  serverTx : Ringbuf UInt8
  out : List UInt8
  enqueued : List UInt8

inductive M2cOp
  | enqueue (bytes : List UInt8)
  | queueServerTx
  | readTx (maxLen : ℕ)

def m2cStep (t : M2cState) : M2cOp → M2cState
  | .enqueue bytes =>
    let written := t.serverTx.write bytes
    { t with serverTx := written.2, enqueued := t.enqueued ++ bytes.take written.1 }
  | .queueServerTx =>
    let queued := mcLinkSessionQueueServerTx t.session t.serverTx
    { t with session := queued.2.1, serverTx := queued.2.2 }
  | .readTx maxLen =>
    let read := mcLinkSessionReadTx t.session maxLen
    { t with session := read.2, out := t.out ++ read.1 }

def m2cRun (t : M2cState) (ops : List M2cOp) : M2cState := ops.foldl m2cStep t

/-- A session and a server's ring without server bytes, whatever the sizes. -/
def m2cStart (s : LinkSession) (txCap : ℕ) (negotiatedPayload : UInt16) (serverCap : ℕ) : M2cState :=
  { session := { s with tx := .init txCap, negotiatedPayload := negotiatedPayload }
    serverTx := .init serverCap
    out := []
    enqueued := [] }

/-- The bytes of the data frames that are not read out whole: the part read of the active
one, then the ring. -/
def M2cState.queuedBytes (t : M2cState) : List UInt8 :=
  (if t.session.activeTxQueue = some .data then linkTail t.out else []) ++ t.session.tx.items

/-- Since `m₀` the payloads queued and the server's ring are the bytes enqueued. -/
def M2cKept (m₀ : TxMux) (t : M2cState) : Prop :=
  ∃ m, TxRel t.session m ∧ m.output = m₀.output ++ t.out ∧
    (m.framesOf .data).flatMap m2cPayloads ++ t.serverTx.items =
      (m₀.framesOf .data).flatMap m2cPayloads ++ t.enqueued

theorem M2cKept.step {m₀ : TxMux} {t : M2cState} (h : M2cKept m₀ t) (op : M2cOp) :
    M2cKept m₀ (m2cStep t op) := by
  obtain ⟨m, hm, houtput, hbytes⟩ := h
  cases op with
  | enqueue bytes =>
    refine ⟨m, hm, houtput, ?_⟩
    have hwritten : bytes.take (t.serverTx.write bytes).1 = bytes.take t.serverTx.free := by
      rw [Ringbuf.write, Nat.min_comm, List.take_eq_take_iff]
      omega
    show _ ++ (t.serverTx.items ++ bytes.take t.serverTx.free) = _
    rw [← List.append_assoc, hbytes, List.append_assoc]
    dsimp only [m2cStep]
    rw [hwritten]
  | queueServerTx =>
    rcases mcLinkSessionQueueServerTx_cases t.session t.serverTx with
      h | h | ⟨n, payload, _, _, hpayload, hlen, hmax, hfree, h⟩
    · dsimp only [m2cStep]
      rw [h]
      exact ⟨m, hm, houtput, hbytes⟩
    · dsimp only [m2cStep]
      rw [h]
      exact ⟨m, hm.congr (sameTx_countError _), houtput, hbytes⟩
    · -- the payload leaves the server's ring in a new frame
      dsimp only [m2cStep]
      rw [h]
      refine ⟨_, hm.enqueueData (hlen ▸ hmax) hfree, houtput, ?_⟩
      dsimp only
      rw [Mux.framesOf_enqueue, if_pos rfl, List.flatMap_append, List.flatMap_singleton,
        m2cPayloads_data (hlen ▸ hmax), Ringbuf.items_drop, List.append_assoc, hpayload,
        List.take_append_drop, hbytes]
  | readTx maxLen =>
    obtain ⟨m', hm', hsends⟩ := hm.readTx maxLen
    refine ⟨m', hm', ?_, ?_⟩
    · rw [hsends.output, houtput, List.append_assoc]
      rfl
    · rw [hsends.framesOf]
      exact hbytes

theorem M2cKept.run {m₀ : TxMux} {t : M2cState} (h : M2cKept m₀ t) (ops : List M2cOp) :
    M2cKept m₀ (m2cRun t ops) := by
  induction ops generalizing t with
  | nil => exact h
  | cons op ops ih => exact ih (h.step op)

theorem TxRel.output_payloads {s : LinkSession} {m : TxMux} (h : TxRel s m) :
    m2cPayloads m.output = (m.sentOf .data).flatMap m2cPayloads ∧
      linkTail m.output = m.current.elim [] fun c => c.2.1 := by
  -- On the line are whole frames and a part of the active one, which has no delimiter.
  have hframes : ∀ frame ∈ m.sent.map Prod.snd, IsFrame mcLinkDelimiter frame := by
    intro frame hmem
    obtain ⟨c, hc, rfl⟩ := List.mem_map.mp hmem
    exact (h.sound.sent c hc).isLinkFrame.isFrame
  have hpart : mcLinkDelimiter ∉ (m.current.elim [] fun c => c.2.1) := by
    cases hcurrent : m.current with
    | none => exact List.not_mem_nil
    | some c =>
      obtain ⟨q, part, tail⟩ := c
      have hframe := (h.sound.current hcurrent).isLinkFrame.isFrame
      have hpos := List.length_pos_of_ne_nil (h.tail_ne_nil q part tail hcurrent)
      have hshort : part.length < (part ++ tail).length := by
        rw [List.length_append]
        exact Nat.lt_add_of_pos_right hpos
      have hnotMem := hframe.notMem_take hshort
      rw [List.take_left] at hnotMem
      exact hnotMem
  rw [Mux.output, m2cPayloads_flatten hframes hpart, linkTail_flatten hframes hpart,
    flatMap_m2cPayloads_line h.sound.sent]
  exact ⟨rfl, rfl⟩

theorem TxRel.queuedBytes {t : M2cState} {m : TxMux} (h : TxRel t.session m)
    (htail : linkTail t.out = m.current.elim [] fun c => c.2.1) :
    t.queuedBytes = (m.currentOf .data ++ m.waiting .data).flatten := by
  have hring : t.session.tx.items = m.tailOf .data ++ (m.waiting .data).flatten := h.ring .data
  rw [M2cState.queuedBytes, htail, hring, List.flatten_append, ← List.append_assoc]
  congr 1
  cases hcurrent : m.current with
  | none =>
    rw [if_neg (by rw [h.activeTxQueue_eq_none.mpr hcurrent]; exact nofun)]
    simp [Mux.tailOf, Mux.currentOf, hcurrent]
  | some c =>
    obtain ⟨q, part, tail⟩ := c
    rw [(h.of_current hcurrent).1]
    by_cases hq : q = .data
    · simp [Mux.tailOf, Mux.currentOf, hcurrent, hq]
    · simp [Mux.tailOf, Mux.currentOf, hcurrent, hq]

/-- What a run has read out, queued and left in the server's ring is all it enqueued. -/
theorem M2cKept.payloads {s₀ : LinkSession} {m₀ : TxMux} (hm₀ : TxRel s₀ m₀)
    (hidle : m₀.current = none) (hempty : m₀.waiting .data = []) {t : M2cState}
    (h : M2cKept m₀ t) :
    m2cPayloads t.out ++ m2cPayloads t.queuedBytes ++ t.serverTx.items = t.enqueued := by
  obtain ⟨m, hm, houtput, hbytes⟩ := h
  obtain ⟨hsent₀, htail₀⟩ := hm₀.output_payloads
  obtain ⟨hsent, htail⟩ := hm.output_payloads
  rw [hidle, Option.elim_none] at htail₀
  -- before the run only whole frames went out
  rw [houtput, linkTail_append, htail₀, List.nil_append] at htail
  rw [houtput, m2cPayloads_append, htail₀, List.nil_append, hsent₀] at hsent
  have hframes : ∀ frame ∈ m.currentOf .data ++ m.waiting .data,
      IsFrame mcLinkDelimiter frame := by
    intro frame hmem
    apply TxFrame.isLinkFrame (hm.sound.framesOf .data frame _) |>.isFrame
    rw [Mux.framesOf, List.append_assoc]
    exact List.mem_append_right _ hmem
  have hqueued := m2cPayloads_flatten hframes List.not_mem_nil
  rw [List.append_nil, ← hm.queuedBytes htail] at hqueued
  have hnone : m₀.currentOf .data = [] := by
    rw [Mux.currentOf, hidle]
    rfl
  rw [Mux.framesOf, Mux.framesOf, hnone, hempty, List.append_nil, List.append_nil,
    List.append_assoc (m.sentOf _), List.flatMap_append, ← hsent, ← hqueued] at hbytes
  apply List.append_cancel_left
  rw [← hbytes, List.append_assoc, List.append_assoc, List.append_assoc]

/-- A run of enqueues, `queue_server_tx` and `read_tx` calls from any session whose data ring is
empty and that is in the middle of no frame: the payloads read out, those in the data ring and
the bytes in the server's ring are all bytes enqueued, in order. -/
theorem m2cRun_conserves (rx : Ringbuf UInt8) (calls : List SessionOp)
    (hidle : (sessionRun (mcLinkSessionInit rx) calls).2.activeTxQueue = none)
    (txCap : ℕ) (negotiatedPayload : UInt16) (serverCap : ℕ) (ops : List M2cOp) :
    let t := m2cRun (m2cStart (sessionRun (mcLinkSessionInit rx) calls).2 txCap negotiatedPayload
      serverCap) ops
    m2cPayloads t.out ++ m2cPayloads t.queuedBytes ++ t.serverTx.items = t.enqueued ∧
    ∀ (s : LinkSession) (serverTx : Ringbuf UInt8),
      (mcLinkSessionQueueServerTx s serverTx).1 = false →
      (mcLinkSessionQueueServerTx s serverTx).2.2 = serverTx ∧
      (mcLinkSessionQueueServerTx s serverTx).2.1.tx = s.tx ∧
      (mcLinkSessionQueueServerTx s serverTx).2.1.txSeqNext = s.txSeqNext := by
  obtain ⟨m, hm, _⟩ := (txRel_init rx).sessionRun calls
  have hnone := hm.activeTxQueue_eq_none.mp hidle
  obtain ⟨start, hstart⟩ : ∃ start, start = m2cStart (sessionRun (mcLinkSessionInit rx) calls).2
      txCap negotiatedPayload serverCap := ⟨_, rfl⟩
  have hsession : TxRel start.session (m.forget .data) := by
    rw [hstart]
    refine hm.forget ?_ ?_ rfl (fun _ => rfl) rfl
    · rw [Mux.tailOf, hnone]
      rfl
    · rintro (_ | _) hp
      · exact absurd rfl hp
      · rfl
  have hkept : M2cKept (m.forget .data) start := by
    refine ⟨_, hsession, ?_, ?_⟩
    · rw [hstart]
      exact (List.append_nil _).symm
    · rw [hstart]
      rfl
  rw [← hstart]
  refine ⟨(hkept.run ops).payloads hsession hnone ?_, ?_⟩
  · simp [Mux.forget]
  · intro s serverTx hfail
    rcases mcLinkSessionQueueServerTx_failed hfail with h | h
    · rw [h]
      exact ⟨rfl, rfl, rfl⟩
    · rw [h]
      exact ⟨rfl, rfl, rfl⟩

/-- Two frames of three bytes, of which the first is read out whole and the second in part. -/
theorem m2cRun_conserves_three :
    let t := m2cRun (m2cStart (sessionRun (mcLinkSessionInit (.init 8192)) []).2 2048 3 49152)
      [.enqueue [1, 2, 3, 4, 5, 6, 7, 8], .queueServerTx, .queueServerTx, .readTx 20, .readTx 1]
    m2cPayloads t.out ++ m2cPayloads t.queuedBytes ++ t.serverTx.items = t.enqueued ∧
      m2cPayloads t.out = [1, 2, 3] ∧ linkTail t.out ≠ [] ∧
      m2cPayloads t.queuedBytes = [4, 5, 6] ∧ t.serverTx.items = [7, 8] :=
  ⟨(m2cRun_conserves (.init 8192) [] rfl 2048 3 49152
    [.enqueue [1, 2, 3, 4, 5, 6, 7, 8], .queueServerTx, .queueServerTx, .readTx 20,
      .readTx 1]).1, by decide +kernel, by decide +kernel, by decide +kernel, by decide +kernel⟩

end StarrySky.Firmware
