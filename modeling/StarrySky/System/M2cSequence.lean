import StarrySky.Bridge.LinkLemmas
import StarrySky.Bridge.Session
import StarrySky.Firmware.Framing

/-! Sequence numbers of the data frames the firmware sends: counted from the last
link reset, without a gap as long as no queued frame is dropped. -/

namespace StarrySky.System
open StarrySky.Base StarrySky.Link StarrySky.Firmware
open StarrySky.Bridge (acceptM2cFrames acceptM2cFrames_of_seqs)

/-- Data frames with consecutive sequence numbers from `start`. -/
def NumberedFrom : ℕ → List (List UInt8) → Prop
  | _, [] => True
  | start, frame :: frames =>
    (∃ ack payload, payload.length ≤ mcLinkMaxPayload ∧
      frame = mcLinkFrameBytes mcLinkDataM2c (UInt16.ofNat start) ack payload) ∧
    NumberedFrom (start + 1) frames

theorem NumberedFrom.snoc {start : ℕ} {frames : List (List UInt8)} (h : NumberedFrom start frames)
    {payload : List UInt8} (hlen : payload.length ≤ mcLinkMaxPayload) (ack : UInt16) :
    NumberedFrom start (frames ++
      [mcLinkFrameBytes mcLinkDataM2c (UInt16.ofNat (start + frames.length)) ack payload]) := by
  induction frames generalizing start with
  | nil => exact ⟨⟨ack, payload, hlen, rfl⟩, trivial⟩
  | cons frame frames ih =>
    have := ih h.2
    rw [Nat.add_assoc, Nat.add_comm 1] at this
    exact ⟨h.1, this⟩

theorem NumberedFrom.of_prefix {start : ℕ} {frames frames' : List (List UInt8)}
    (h : NumberedFrom start frames') (hpre : frames <+: frames') :
    NumberedFrom start frames := by
  obtain ⟨rest, rfl⟩ := hpre
  induction frames generalizing start with
  | nil => trivial
  | cons frame frames ih => exact ⟨h.1, ih h.2⟩

def decodeDataM2c (segment : List UInt8) : Option Bridge.Link.Frame :=
  match Bridge.Link.decodeOne segment with
  | .ok frame => if frame.frameType = .dataM2c then some frame else none
  | .error _ => none

/-- The complete data frames in the bytes `out` sent from state `s` on; what is left
of a frame that was being sent at `s` comes first and is skipped. -/
def dataM2cFrames (s : LinkSession) (out : List UInt8) : List Bridge.Link.Frame :=
  (cutFrames mcLinkDelimiter
    (out.drop (if s.activeTxQueue = none then 0 else s.activeTxRemaining))).1.filterMap decodeDataM2c

theorem decodeDataM2c_data {payload : List UInt8} (h : payload.length ≤ mcLinkMaxPayload)
    (seq ack : UInt16) :
    decodeDataM2c (mcLinkFrameBytes mcLinkDataM2c seq ack payload) =
      some { frameType := .dataM2c, flags := 0, seq := seq, ack := ack, payload := payload } := by
  rw [decodeDataM2c, Bridge.Link.decodeOne_mcLinkFrameBytes h]
  rfl

theorem decodeDataM2c_control {frame : List UInt8} (h : TxFrame .control frame) :
    decodeDataM2c frame = none := by
  obtain ⟨type, seq, ack, payload, htype, hencode⟩ := h
  obtain ⟨hle, rfl⟩ := mcLinkEncode_eq_some hencode
  rw [decodeDataM2c, Bridge.Link.decodeOne_mcLinkFrameBytes hle]
  refine if_neg fun heq => htype ?_
  rw [← Bridge.Link.FrameType.toU8_fromU8 type]
  exact congrArg Bridge.Link.FrameType.toU8 heq

theorem NumberedFrom.seqs {start : ℕ} {frames : List (List UInt8)}
    (h : NumberedFrom start frames) :
    (frames.filterMap decodeDataM2c).map Bridge.Link.Frame.seq =
      (List.range' start frames.length).map UInt16.ofNat := by
  induction frames generalizing start with
  | nil => rfl
  | cons frame frames ih =>
    obtain ⟨⟨ack, payload, hlen, rfl⟩, hframes⟩ := h
    rw [List.filterMap_cons_some (decodeDataM2c_data hlen _ _), List.map_cons, ih hframes]
    rfl

theorem filterMap_decodeDataM2c_line {line : List (TxQueue × List UInt8)}
    (h : ∀ c ∈ line, TxFrame c.1 c.2) :
    (line.map Prod.snd).filterMap decodeDataM2c =
      (sentFrom line .data).filterMap decodeDataM2c := by
  -- On the line the control frames decode to no data frame.
  induction line with
  | nil => rfl
  | cons c line ih =>
    have hline := ih fun c' hc' => h c' (List.mem_cons_of_mem _ hc')
    obtain ⟨q, frame⟩ := c
    cases q with
    | data => simp only [sentFrom, List.map_cons, decide_true, List.filter_cons_of_pos,
        List.filterMap_cons, hline]
    | control =>
      have hframe := decodeDataM2c_control (h _ List.mem_cons_self)
      rw [List.map_cons, List.filterMap_cons_none hframe, hline]
      simp [sentFrom]

/-- States in which a link reset has just been made. -/
inductive AfterLinkReset : LinkSession → Prop
  | init (rx : Ringbuf UInt8) : AfterLinkReset (mcLinkSessionInit rx)
  | reset (rx : Ringbuf UInt8) (calls : List SessionOp) (frame : McLinkFrame) :
      AfterLinkReset (handleReset (sessionRun (mcLinkSessionInit rx) calls).2 frame).2
  | hello (rx : Ringbuf UInt8) (calls : List SessionOp) (frame : McLinkFrame)
      (p0 p1 c0 c1 m0 m1 : UInt8) (hpayload : frame.payload = [p0, p1, c0, c1, m0, m1])
      (hpositive : ofLeBytes p0 p1 ≠ 0 ∧ ofLeBytes c0 c1 ≠ 0) :
      AfterLinkReset (handleHello (sessionRun (mcLinkSessionInit rx) calls).2 frame).2
  | error (rx : Ringbuf UInt8) (calls : List SessionOp) (code detail : UInt8)
      (hqueued : (queueError (sessionRun (mcLinkSessionInit rx) calls).2 code detail).1 = true) :
      AfterLinkReset
        (mcLinkSessionResetAfterError (sessionRun (mcLinkSessionInit rx) calls).2 code detail).2

def FreshM2c (s : LinkSession) : Prop :=
  ∃ m, TxRel s m ∧ m.waiting .data = [] ∧ s.txSeqNext = 0

theorem FreshM2c.queueControlFrame {s : LinkSession} (h : FreshM2c s) (type : UInt8)
    (htype : type ≠ mcLinkDataM2c) (seq ack : UInt16) (payload : List UInt8) :
    FreshM2c (queueControlFrame s type seq ack payload).2 := by
  obtain ⟨m, hm, hwaiting, hseq⟩ := h
  have hsame := (sameLink_queueControlFrame s type seq ack payload).txSeqNext.trans hseq
  rcases hm.queueControlFrame type htype seq ack payload with h | h
  · exact ⟨m, h, hwaiting, hsame⟩
  · exact ⟨_, h, by simpa [Mux.enqueue] using hwaiting, hsame⟩

theorem FreshM2c.queueReady {s : LinkSession} (h : FreshM2c s) : FreshM2c (queueReady s).2 :=
  h.queueControlFrame _ (by decide) _ _ _

theorem FreshM2c.congr {s t : LinkSession} (h : FreshM2c s) (hst : SameTx s t)
    (hseq : t.txSeqNext = s.txSeqNext) : FreshM2c t := by
  obtain ⟨m, hm, hwaiting, hzero⟩ := h
  exact ⟨m, hm.congr hst, hwaiting, hseq.trans hzero⟩

theorem freshM2c_resetLinkStatePreservingControlTx {s : LinkSession} {m : TxMux}
    (h : TxRel s m) : FreshM2c (resetLinkStatePreservingControlTx s) := by
  have hstart : TxRel { s with
      rxSeqExpected := 0, txSeqNext := 0, ready := true, parser := mcLinkParserInit } m :=
    h.congr ⟨rfl, rfl, rfl, rfl, rfl, rfl⟩
  refine ⟨m.forget .data, hstart.dropDataTx.congr ⟨rfl, rfl, rfl, rfl, rfl, rfl⟩, ?_, ?_⟩
  · simp [Mux.forget]
  · simp only [resetLinkStatePreservingControlTx, dropDataTx]
    split_ifs <;> rfl

theorem freshM2c_resetLinkState {s : LinkSession} {m : TxMux} (h : TxRel s m) :
    FreshM2c (resetLinkState s) := by
  obtain ⟨m', hm', hwaiting, hseq⟩ := freshM2c_resetLinkStatePreservingControlTx h
  refine ⟨m'.forget .control, hm'.dropControlTx, by simpa [Mux.forget] using hwaiting, ?_⟩
  rw [resetLinkState, dropControlTx]
  dsimp only
  split_ifs <;> exact hseq

theorem AfterLinkReset.fresh {s : LinkSession} (h : AfterLinkReset s) : FreshM2c s := by
  have hreach : ∀ rx calls, ∃ m, TxRel (sessionRun (mcLinkSessionInit rx) calls).2 m := by
    intro rx calls
    obtain ⟨m, hm, _⟩ := (txRel_init rx).sessionRun calls
    exact ⟨m, hm⟩
  cases h with
  | init rx => exact ⟨.init, txRel_init rx, rfl, rfl⟩
  | reset rx calls frame =>
    obtain ⟨m, hm⟩ := hreach rx calls
    have hreset : FreshM2c { resetLinkState (sessionRun (mcLinkSessionInit rx) calls).2 with
        resetRequested := true } :=
      (freshM2c_resetLinkState hm).congr ⟨rfl, rfl, rfl, rfl, rfl, rfl⟩ rfl
    have hack := hreset.queueControlFrame mcLinkResetAck (by decide) frame.seq frame.ack []
    unfold handleReset
    dsimp only
    split_ifs
    · exact hack.queueReady
    · exact hack
  | hello rx calls frame p0 p1 c0 c1 m0 m1 hpayload hpositive =>
    obtain ⟨m, hm⟩ := hreach rx calls
    unfold handleHello
    rw [hpayload]
    dsimp only
    rw [if_neg (by simpa using hpositive)]
    exact FreshM2c.queueReady ((freshM2c_resetLinkState hm).congr
      ⟨rfl, rfl, rfl, rfl, rfl, rfl⟩ rfl)
  | error rx calls code detail hqueued =>
    obtain ⟨m, hm⟩ := hreach rx calls
    obtain ⟨m', hm', _⟩ := txSilent_queueError _ code detail m hm
    unfold mcLinkSessionResetAfterError
    dsimp only
    rw [if_pos hqueued]
    exact (freshM2c_resetLinkStatePreservingControlTx hm').queueReady

/-- The calls between two link resets; a drop finds no whole frame to discard. -/
def KeepsM2c (s : LinkSession) : SessionOp → Prop
  | .queueServerTx _ => True
  | .readTx _ => True
  | .creditConsumed _ => True
  | .dropQueuedData => s.tx.len ≤ if s.activeTxQueue = some .data then s.activeTxRemaining else 0
  | _ => False

def M2cRun : LinkSession → List SessionOp → Prop
  | _, [] => True
  | s, call :: calls => KeepsM2c s call ∧ M2cRun (sessionStep s call).2 calls

instance (s : LinkSession) : (call : SessionOp) → Decidable (KeepsM2c s call)
  | .queueServerTx _ => inferInstanceAs (Decidable True)
  | .readTx _ => inferInstanceAs (Decidable True)
  | .creditConsumed _ => inferInstanceAs (Decidable True)
  | .dropQueuedData => inferInstanceAs (Decidable
      (s.tx.len ≤ if s.activeTxQueue = some .data then s.activeTxRemaining else 0))
  | .receiveBytes _ => inferInstanceAs (Decidable False)
  | .resetAfterError _ _ => inferInstanceAs (Decidable False)
  | .readRx _ => inferInstanceAs (Decidable False)

instance decidableM2cRun : (s : LinkSession) → (calls : List SessionOp) → Decidable (M2cRun s calls)
  | _, [] => inferInstanceAs (Decidable True)
  | s, call :: calls =>
    have := decidableM2cRun (sessionStep s call).2 calls
    inferInstanceAs (Decidable (KeepsM2c s call ∧ M2cRun (sessionStep s call).2 calls))

/-- Since `m₀` the data frames queued are numbered from zero and none was dropped. -/
def M2cInv (m₀ : TxMux) (s : LinkSession) (out : List UInt8) : Prop :=
  ∃ m news, TxRel s m ∧ m.output = m₀.output ++ out ∧ m₀.line <+: m.line ∧
    m.framesOf .data = m₀.framesOf .data ++ news ∧ NumberedFrom 0 news ∧
    s.txSeqNext = UInt16.ofNat news.length

theorem M2cInv.step {m₀ : TxMux} {s : LinkSession} {out : List UInt8} (h : M2cInv m₀ s out)
    {call : SessionOp} (hcall : KeepsM2c s call) :
    M2cInv m₀ (sessionStep s call).2 (out ++ (sessionStep s call).1) := by
  obtain ⟨m, news, hm, houtput, hline, hframes, hnews, hseq⟩ := h
  cases call with
  | queueServerTx serverTx =>
    simp only [sessionStep, List.append_nil]
    rcases mcLinkSessionQueueServerTx_cases s serverTx with
      h | h | ⟨n, payload, _, _, _, hlen, hmax, hfree, h⟩
    · rw [h]
      exact ⟨m, news, hm, houtput, hline, hframes, hnews, hseq⟩
    · rw [h]
      exact ⟨m, news, hm.congr (sameTx_countError s), houtput, hline, hframes, hnews, hseq⟩
    · rw [h]
      refine ⟨_, news ++ [mcLinkFrameBytes mcLinkDataM2c s.txSeqNext s.rxSeqExpected payload],
        hm.enqueueData (hlen ▸ hmax) hfree, houtput, hline, ?_, ?_, ?_⟩
      · rw [Mux.framesOf_enqueue, if_pos rfl, hframes, List.append_assoc]
      · have := hnews.snoc (hlen ▸ hmax : payload.length ≤ mcLinkMaxPayload) s.rxSeqExpected
        rwa [Nat.zero_add, ← hseq] at this
      · simp [LinkSession.enqueueData, hseq]
  | creditConsumed len =>
    simp only [sessionStep, List.append_nil, mcLinkSessionCreditConsumed]
    rcases queueAckC2m_cases s 0 with ⟨hfree, h⟩ | h
    · rw [h]
      refine ⟨_, news, hm.enqueueAck hfree, houtput, hline, ?_, hnews, hseq⟩
      rw [Mux.framesOf_enqueue, if_neg (by decide), List.append_nil, hframes]
    · rw [h]
      exact ⟨m, news, hm.congr (sameTx_countError s), houtput, hline, hframes, hnews, hseq⟩
  | dropQueuedData =>
    simp only [sessionStep, List.append_nil]
    have hwaiting := hm.waiting_data_eq_nil hcall
    refine ⟨_, news, hm.dropQueuedData, houtput, hline, ?_, hnews, ?_⟩
    · rw [Mux.framesOf_eq, hwaiting] at hframes
      rw [Mux.framesOf_eq, ← hframes]
      simp [Mux.forget, Mux.line]
    · rw [← hseq]
      simp only [mcLinkSessionDropQueuedData, clearActiveTx]
      split_ifs <;> rfl
  | readTx maxLen =>
    obtain ⟨m', hm', hsends⟩ := hm.readTx maxLen
    refine ⟨m', news, hm', ?_, hline.trans hsends.line, ?_, hnews, ?_⟩
    · rw [hsends.output, houtput, List.append_assoc]
      rfl
    · rw [hsends.framesOf, hframes]
    · exact (sameLink_mcLinkSessionReadTx s maxLen).txSeqNext.trans hseq
  | receiveBytes src => exact hcall.elim
  | resetAfterError code detail => exact hcall.elim
  | readRx maxLen => exact hcall.elim

theorem M2cInv.run {m₀ : TxMux} {s : LinkSession} {out : List UInt8} (h : M2cInv m₀ s out)
    {calls : List SessionOp} (hrun : M2cRun s calls) :
    M2cInv m₀ (sessionRun s calls).2 (out ++ (sessionRun s calls).1) := by
  induction calls generalizing s out with
  | nil => simpa [sessionRun] using h
  | cons call calls ih =>
    have := ih (h.step hrun.1) hrun.2
    simpa [sessionRun] using this

theorem sentFrom_append (line line' : List (TxQueue × List UInt8)) (queue : TxQueue) :
    sentFrom (line ++ line') queue = sentFrom line queue ++ sentFrom line' queue := by
  simp [sentFrom]

theorem cut_output {m₀ : TxMux} {s : LinkSession} {m : TxMux} (h : TxRel s m) {out : List UInt8}
    (houtput : m.output = m₀.output ++ out) {new : List (TxQueue × List UInt8)}
    (hline : m.line = m₀.line ++ new) :
    ∃ complete, complete <+: new ∧
      (cutFrames mcLinkDelimiter (out.drop m₀.unsent.length)).1 = complete.map Prod.snd := by
  -- What went out since `m₀`: the rest of its frame, whole frames of the line, and a part.
  have hframes : ∀ c ∈ m.line, IsFrame mcLinkDelimiter c.2 := by
    intro c hc
    have hmem : c.2 ∈ m.framesOf c.1 := by
      rw [Mux.framesOf_eq]
      exact List.mem_append_left _ (List.mem_map_of_mem (List.mem_filter.mpr ⟨hc, by simp⟩))
    exact (h.sound.framesOf c.1 _ hmem).isLinkFrame.isFrame
  have hbytes : out ++ m.unsent = m₀.unsent ++ (new.map Prod.snd).flatten := by
    have := m.output_append_unsent
    rw [hline, houtput, List.map_append, List.flatten_append, ← m₀.output_append_unsent] at this
    simpa using this
  have hcut : ∀ (complete : List (TxQueue × List UInt8)) (part : List UInt8), complete <+: new →
      mcLinkDelimiter ∉ part → out.drop m₀.unsent.length = (complete.map Prod.snd).flatten ++ part →
      (cutFrames mcLinkDelimiter (out.drop m₀.unsent.length)).1 = complete.map Prod.snd := by
    intro complete part hpre hpart hdrop
    rw [hdrop, cutFrames_flatten _ hpart]
    simp only [List.mem_map]
    rintro f ⟨c, hc, rfl⟩
    exact hframes c (hline ▸ List.mem_append_right _ (hpre.subset hc))
  cases hcurrent : m.current with
  | none =>
    refine ⟨new, List.prefix_rfl, hcut new [] List.prefix_rfl List.not_mem_nil ?_⟩
    simp only [Mux.unsent, hcurrent, Option.elim_none, List.append_nil] at hbytes
    simp [hbytes, Mux.unsent]
  | some c =>
    obtain ⟨q, part, tail⟩ := c
    have hunsent : m.unsent = tail := by simp [Mux.unsent, hcurrent]
    rcases List.eq_nil_or_concat new with hnil | ⟨complete, last, hnew⟩
    · refine ⟨[], List.nil_prefix, hcut [] [] List.nil_prefix List.not_mem_nil ?_⟩
      rw [hnil, List.map_nil, List.flatten_nil, List.append_nil] at hbytes
      simp [← hbytes]
    · rw [List.concat_eq_append] at hnew
      have hlast : last = (q, part ++ tail) := by
        have : (m₀.line ++ complete) ++ [last] = m.sent ++ [(q, part ++ tail)] := by
          rw [List.append_assoc, ← hnew, ← hline]
          simp [Mux.line, hcurrent]
        exact (List.append_inj' this rfl).2 |> List.singleton_inj.mp
      have hlastFrame : IsFrame mcLinkDelimiter (part ++ tail) := by
        have := hframes last (by simp [hline, hnew])
        rwa [hlast] at this
      have hpos := List.length_pos_of_ne_nil (h.tail_ne_nil _ _ _ hcurrent)
      have hpart : mcLinkDelimiter ∉ part := by
        have hshort : part.length < (part ++ tail).length := by simpa using hpos
        have := hlastFrame.notMem_take hshort
        rwa [List.take_left] at this
      refine ⟨complete, ⟨[last], hnew.symm⟩, hcut complete part ⟨[last], hnew.symm⟩ hpart ?_⟩
      rw [hunsent, hnew, hlast] at hbytes
      simp only [List.map_append, List.map_cons, List.map_nil, List.flatten_append,
        List.flatten_cons, List.flatten_nil, List.append_nil] at hbytes
      have hout : out = m₀.unsent ++ ((complete.map Prod.snd).flatten ++ part) := by
        refine List.append_cancel_right (?_ : out ++ tail = _ ++ tail)
        simpa using hbytes
      rw [hout, List.drop_left]

theorem length_unsent {s : LinkSession} {m : TxMux} (h : TxRel s m) :
    m.unsent.length = if s.activeTxQueue = none then 0 else s.activeTxRemaining := by
  cases hcurrent : m.current with
  | none =>
    rw [if_pos (h.activeTxQueue_eq_none.mpr hcurrent)]
    simp [Mux.unsent, hcurrent]
  | some c =>
    obtain ⟨hactive, hremaining⟩ := h.of_current hcurrent
    rw [if_neg (by simp [hactive]), hremaining]
    simp [Mux.unsent, hcurrent]

/-- Between link resets, with no queued data frame dropped, the data frames sent are
numbered 0, 1, 2, ... modulo 65536 and the bridge accepts them all. -/
theorem dataM2cFrames_consecutive {s : LinkSession} (hreset : AfterLinkReset s)
    {calls : List SessionOp} (hrun : M2cRun s calls) :
    (dataM2cFrames s (sessionRun s calls).1).map Bridge.Link.Frame.seq =
        (List.range (dataM2cFrames s (sessionRun s calls).1).length).map UInt16.ofNat ∧
      acceptM2cFrames (dataM2cFrames s (sessionRun s calls).1) 0 =
        .ok (UInt16.ofNat (dataM2cFrames s (sessionRun s calls).1).length) := by
  obtain ⟨m₀, hm₀, hwaiting, hzero⟩ := hreset.fresh
  have hstart : M2cInv m₀ s [] :=
    ⟨m₀, [], hm₀, by simp, List.prefix_rfl, by simp, trivial, hzero⟩
  obtain ⟨m, news, hm, houtput, ⟨new, hline⟩, hframes, hnews, _⟩ := hstart.run hrun
  rw [List.nil_append] at houtput
  obtain ⟨complete, hpre, hcut⟩ := cut_output hm houtput hline.symm
  have hsent : sentFrom complete .data <+: news := by
    obtain ⟨rest, hrest⟩ := hpre
    have hdata : sentFrom new .data ++ m.waiting .data = news := by
      have := hframes
      rw [Mux.framesOf_eq, Mux.framesOf_eq, hwaiting, List.append_nil] at this
      change sentFrom m.line .data ++ m.waiting .data = sentFrom m₀.line .data ++ news at this
      rw [← hline, sentFrom_append, List.append_assoc] at this
      exact List.append_cancel_left this
    rw [← hrest, sentFrom_append, List.append_assoc] at hdata
    exact ⟨_, hdata⟩
  have htx : ∀ c ∈ complete, TxFrame c.1 c.2 := by
    intro c hc
    refine hm.sound.framesOf c.1 _ ?_
    rw [Mux.framesOf_eq]
    refine List.mem_append_left _ (List.mem_map_of_mem (List.mem_filter.mpr ⟨?_, by simp⟩))
    exact hline ▸ List.mem_append_right _ (hpre.subset hc)
  have hdecoded : dataM2cFrames s (sessionRun s calls).1 =
      (sentFrom complete .data).filterMap decodeDataM2c := by
    rw [dataM2cFrames, ← length_unsent hm₀, hcut, filterMap_decodeDataM2c_line htx]
  have hseqs := (hnews.of_prefix hsent).seqs
  rw [← hdecoded] at hseqs
  have hlen : (sentFrom complete .data).length =
      (dataM2cFrames s (sessionRun s calls).1).length := by
    simpa using (congrArg List.length hseqs).symm
  rw [hlen] at hseqs
  refine ⟨by rw [hseqs, List.range_eq_range'], ?_⟩
  have := acceptM2cFrames_of_seqs hseqs
  simpa using this

/-- One data frame is sent, a drop finds the queue empty, and another frame is sent. -/
theorem dataM2cFrames_consecutive_two :
    (dataM2cFrames (mcLinkSessionInit (.init mcRxRingCap))
      (sessionRun (mcLinkSessionInit (.init mcRxRingCap))
        [.queueServerTx ⟨1, [7], by decide⟩, .readTx 512, .dropQueuedData,
          .queueServerTx ⟨1, [8], by decide⟩, .readTx 512]).1).map Bridge.Link.Frame.seq = [0, 1] := by
  have hrun : M2cRun (mcLinkSessionInit (.init mcRxRingCap))
      [.queueServerTx ⟨1, [7], by decide⟩, .readTx 512, .dropQueuedData,
        .queueServerTx ⟨1, [8], by decide⟩, .readTx 512] := by
    decide +kernel
  have hseqs := (dataM2cFrames_consecutive (.init (.init mcRxRingCap)) hrun).1
  have hlen : (dataM2cFrames (mcLinkSessionInit (.init mcRxRingCap))
      (sessionRun (mcLinkSessionInit (.init mcRxRingCap))
        [.queueServerTx ⟨1, [7], by decide⟩, .readTx 512, .dropQueuedData,
          .queueServerTx ⟨1, [8], by decide⟩, .readTx 512]).1).length = 2 := by
    decide +kernel
  rw [hseqs, hlen]
  decide

/-- A data frame that is dropped before it is sent takes its number with it: the next
one is numbered one, and the bridge refuses it. -/
theorem dataM2cFrames_gap :
    (dataM2cFrames (mcLinkSessionInit (.init mcRxRingCap))
      (sessionRun (mcLinkSessionInit (.init mcRxRingCap))
        [.queueServerTx ⟨1, [7], by decide⟩, .dropQueuedData,
          .queueServerTx ⟨1, [8], by decide⟩, .readTx 512]).1).map Bridge.Link.Frame.seq = [1] ∧
    acceptM2cFrames (dataM2cFrames (mcLinkSessionInit (.init mcRxRingCap))
      (sessionRun (mcLinkSessionInit (.init mcRxRingCap))
        [.queueServerTx ⟨1, [7], by decide⟩, .dropQueuedData,
          .queueServerTx ⟨1, [8], by decide⟩, .readTx 512]).1) 0 =
      .error { kind := .invalidData,
               message := "DATA_M2C sequence mismatch expected=0 got=1" } := by
  decide +kernel

end StarrySky.System
