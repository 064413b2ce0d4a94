import StarrySky.System.C2mLink

/-! Link resets that keep the bridge's pending bytes. The stream survives a reset at
which the server has taken exactly the bytes the bridge has removed. -/

namespace StarrySky.System
open StarrySky.Base StarrySky.Link StarrySky.Firmware
open StarrySky.Bridge (C2mSender resetWaitEvent normalizeReady)

/-- The link, and the reset the bridge waits for: its number, and whether the matching
acknowledgement was read. -/
structure ResetSystem where
  link : C2mSystem
  waiting : Option (UInt16 × Bool)

/-- Repeated loss or a used-up sequence number makes the bridge start a reset. -/
inductive ResetOp
  | link (op : C2mOp)
  | startReset (seq : UInt16)

def resetBytes (seq : UInt16) : List UInt8 := mcLinkFrameBytes mcLinkReset seq 0 []

/-- What the bridge's decoder makes of a whole frame. -/
def decodeEvent (encoded : List UInt8) : Bridge.Link.DecodeEvent :=
  match Bridge.Link.decodeOne encoded with
  | .ok frame => .frame frame
  | .error error => .error error

/-- A step of the link; a sender that is out of sequence numbers sends nothing. -/
def linkStep (c : C2mSystem) (op : C2mOp) : C2mSystem :=
  match c2mStep c op with
  | .ok c => c
  | .error _ => c

/-- The bridge reads a frame in `reset_link_and_wait_ready_with_seq`, and once it has
its answer takes it over with `reset_link_state_preserving_pending`. -/
def waitReceive (c : C2mSystem) (seq : UInt16) (sawResetAck : Bool) : ResetSystem :=
  match c.toBridge with
  | [] => { link := c, waiting := some (seq, sawResetAck) }
  | frame :: rest =>
    match resetWaitEvent seq sawResetAck (decodeEvent frame) with
    | (_, some ready) =>
      { link := { c with
          sender := c.sender.resetLinkStatePreservingPending ready.negotiatedPayload
            ready.initialCredit
          toBridge := rest }
        waiting := none }
    | (sawResetAck, none) =>
      { link := { c with toBridge := rest }, waiting := some (seq, sawResetAck) }

/-- While it waits, the bridge only reads. -/
def waitStep (c : C2mSystem) (seq : UInt16) (sawResetAck : Bool) : C2mOp → ResetSystem
  | .push _ | .pushFiltered _ | .send _ | .retransmit _ _ =>
    { link := c, waiting := some (seq, sawResetAck) }
  | .bridgeReceive => waitReceive c seq sawResetAck
  | op => { link := linkStep c op, waiting := some (seq, sawResetAck) }

def resetStep (r : ResetSystem) : ResetOp → ResetSystem
  | .link op =>
    match r.waiting with
    | none => { r with link := linkStep r.link op }
    | some (seq, sawResetAck) => waitStep r.link seq sawResetAck op
  | .startReset seq =>
    match r.waiting with
    | none =>
      { link := { r.link with toFirmware := r.link.toFirmware ++ [resetBytes seq] }
        waiting := some (seq, false) }
    | some _ => r

def resetRun : ResetSystem → List ResetOp → ResetSystem
  | r, [] => r
  | r, op :: ops => resetRun (resetStep r op) ops

/-- The firmware's next frame is a `RESET`. -/
def resetIsNext (c : C2mSystem) : Bool :=
  match c.toFirmware with
  | [] => false
  | frame :: _ =>
    match mcLinkDecodeFrame frame with
    | some frame => frame.type = mcLinkReset
    | none => false

/-- A `RESET` is handled when the server has taken exactly the bytes that were removed
from `pending_tcp`. -/
def KeepsStream (r : ResetSystem) : ResetOp → Prop
  | .link .firmwareReceive => resetIsNext r.link = true → r.link.taken = r.link.removed
  | _ => True

def KeepingRun : ResetSystem → List ResetOp → Prop
  | _, [] => True
  | r, op :: ops => KeepsStream r op ∧ KeepingRun (resetStep r op) ops

def isReady (encoded : List UInt8) : Bool :=
  match Bridge.Link.decodeOne encoded with
  | .ok frame => frame.frameType = .ready
  | .error _ => false

theorem resetWaitEvent_of_none {frame : List UInt8} (hack : resetAckOf frame = none)
    (seq : UInt16) {sawResetAck : Bool} (hready : sawResetAck = false ∨ isReady frame = false) :
    resetWaitEvent seq sawResetAck (decodeEvent frame) = (sawResetAck, none) := by
  -- The wait passes over a frame that is neither a reset's acknowledgement nor a `READY` that it
  -- may accept.
  unfold resetAckOf at hack
  unfold isReady at hready
  unfold decodeEvent
  cases hdecode : Bridge.Link.decodeOne frame with
  | error error => rfl
  | ok f =>
    rw [hdecode] at hack hready
    have htype : f.frameType ≠ .resetAck := by
      rintro htype
      simp [htype] at hack
    have hskip : ¬ (f.frameType = .ready ∧ sawResetAck = true) := by
      rintro ⟨htype, hsaw⟩
      simp [htype, hsaw] at hready
    simp only [resetWaitEvent, if_neg htype, if_neg hskip]

theorem resetWaitEvent_resetAck (seq : UInt16) (sawResetAck : Bool) :
    resetWaitEvent seq sawResetAck (decodeEvent (mcLinkFrameBytes mcLinkResetAck seq 0 [])) =
      (true, none) := by
  rw [decodeEvent, Bridge.Link.decodeOne_mcLinkFrameBytes (Nat.zero_le _)]
  show ((sawResetAck || decide (seq = seq)), none) = (true, none)
  simp

def readyOf (session : LinkSession) : List UInt8 :=
  mcLinkFrameBytes mcLinkReady 0 0 (readyPayload session)

theorem resetWaitEvent_ready {s : LinkSession} (h : Negotiated s) (seq : UInt16) :
    resetWaitEvent seq true (decodeEvent (readyOf s)) =
      (true, some { negotiatedPayload := s.negotiatedPayload.toNat
                    initialCredit := s.creditCap, supportedRateMask := s.supportedRateMask }) := by
  rw [decodeEvent, readyOf, Bridge.Link.decodeOne_mcLinkFrameBytes
    (by simp [length_readyPayload, Bridge.Link.maxPayload])]
  show (true, (Bridge.Link.parseReady (readyPayload s)).bind normalizeReady) = _
  rw [normalizeReady_readyPayload h]

/-- A frame sent after the answers to a reset, before any new client data: it
acknowledges nothing. -/
def IsFresh (frame : List UInt8) : Prop :=
  IsC2mAnswer frame ∧ isReady frame = false ∧
    ∀ answer, ackC2mOf frame = some answer → answer.1 = 0 ∧ answer.2 ≤ mcRxRingCap

theorem isReady_of_ne {payload : List UInt8} (h : payload.length ≤ mcLinkMaxPayload) {type : UInt8}
    (htype : type ≠ mcLinkReady) (seq ack : UInt16) :
    isReady (mcLinkFrameBytes type seq ack payload) = false := by
  rw [isReady, Bridge.Link.decodeOne_mcLinkFrameBytes h]
  exact decide_eq_false fun heq => htype (eq_toU8_of_fromU8 heq)

theorem isFresh_data {frame : List UInt8} (h : TxFrame .data frame) : IsFresh frame := by
  obtain ⟨hanswer, hnone⟩ := isAnswer_data h
  obtain ⟨seq, ack, payload, hencode⟩ := h
  obtain ⟨hlen, rfl⟩ := mcLinkEncode_eq_some hencode
  refine ⟨hanswer, isReady_of_ne hlen (by decide) _ _, fun answer hsome => ?_⟩
  rw [hnone] at hsome
  contradiction

theorem isFresh_ackFrame {s : LinkSession} (hcap : s.rx.cap = mcRxRingCap) :
    IsFresh (ackFrame s 0) := by
  have hlen : (leBytes (rxFreeCredit s)).length ≤ mcLinkMaxPayload := by simp [mcLinkMaxPayload]
  refine ⟨⟨⟨_, _, _, _, hlen, fun _ => ⟨_, rfl⟩, rfl⟩, resetAckOf_of_ne hlen (by decide) _ _⟩,
    isReady_of_ne hlen (by decide) _ _, fun answer hsome => ?_⟩
  rw [ackC2mOf_ackFrame (by simp [hcap, mcRxRingCap])] at hsome
  rw [← Option.some.inj hsome]
  exact ⟨rfl, by rw [← hcap]; exact Nat.sub_le _ _⟩

/-- A `READY`, unless it was lost or read, and fresh frames. -/
def AwaitsReady (ready : List UInt8) (frames : List (List UInt8)) : Prop :=
  ∃ fresh, (frames = ready :: fresh ∨ frames = fresh) ∧ ∀ f ∈ fresh, IsFresh f

/-- Old frames, then the reset's acknowledgement, unless it was lost, and what follows it. -/
def AwaitsAck (seq : UInt16) (ready : List UInt8) (frames : List (List UInt8)) : Prop :=
  ∃ stale rest, frames = stale ++ rest ∧ (∀ f ∈ stale, resetAckOf f = none) ∧
    (rest = [] ∨ ∃ tail, rest = mcLinkFrameBytes mcLinkResetAck seq 0 [] :: tail ∧
      AwaitsReady ready tail)

theorem AwaitsReady.snoc {ready : List UInt8} {frames : List (List UInt8)}
    (h : AwaitsReady ready frames) {frame : List UInt8} (hframe : IsFresh frame) :
    AwaitsReady ready (frames ++ [frame]) := by
  obtain ⟨fresh, hframes, hfresh⟩ := h
  refine ⟨fresh ++ [frame], ?_, fun f hf => ?_⟩
  · exact hframes.imp (fun heq => by rw [heq, List.cons_append]) fun heq => by rw [heq]
  · rcases List.mem_append.mp hf with hf | hf
    · exact hfresh f hf
    · rwa [List.mem_singleton.mp hf]

theorem AwaitsReady.sublist {ready : List UInt8} {frames frames' : List (List UInt8)}
    (h : AwaitsReady ready frames) (hsublist : frames'.Sublist frames) :
    AwaitsReady ready frames' := by
  obtain ⟨fresh, hframes, hfresh⟩ := h
  have hall : ∀ fresh' : List (List UInt8), fresh'.Sublist fresh → ∀ f ∈ fresh', IsFresh f :=
    fun fresh' hsub f hf => hfresh f (hsub.subset hf)
  rcases hframes with rfl | rfl
  · rcases List.sublist_cons_iff.mp hsublist with hsub | ⟨fresh', rfl, hsub⟩
    · exact ⟨frames', .inr rfl, hall _ hsub⟩
    · exact ⟨fresh', .inl rfl, hall _ hsub⟩
  · exact ⟨frames', .inr rfl, hall _ hsublist⟩

theorem AwaitsAck.snoc {seq : UInt16} {ready : List UInt8} {frames : List (List UInt8)}
    (h : AwaitsAck seq ready frames) {frame : List UInt8} (hframe : IsFresh frame) :
    AwaitsAck seq ready (frames ++ [frame]) := by
  obtain ⟨stale, rest, rfl, hstale, hrest⟩ := h
  rcases hrest with rfl | ⟨tail, rfl, htail⟩
  · refine ⟨stale ++ [frame], [], by simp, fun f hf => ?_, .inl rfl⟩
    rcases List.mem_append.mp hf with hf | hf
    · exact hstale f hf
    · rw [List.mem_singleton.mp hf]
      exact hframe.1.2
  · exact ⟨stale, _, List.append_assoc _ _ _, hstale, .inr ⟨tail ++ [frame], rfl, htail.snoc hframe⟩⟩

theorem AwaitsAck.sublist {seq : UInt16} {s : LinkSession} {frames frames' : List (List UInt8)}
    (h : AwaitsAck seq (readyOf s) frames) (hsublist : frames'.Sublist frames) :
    AwaitsAck seq (readyOf s) frames' := by
  obtain ⟨stale, rest, rfl, hstale, hrest⟩ := h
  obtain ⟨stale', rest', rfl, hsub, hsubRest⟩ := List.sublist_append_iff.mp hsublist
  have hstale' : ∀ f ∈ stale', resetAckOf f = none := fun f hf => hstale f (hsub.subset hf)
  rcases hrest with rfl | ⟨tail, rfl, htail⟩
  · rw [List.sublist_nil.mp hsubRest]
    exact ⟨stale', [], rfl, hstale', .inl rfl⟩
  · rcases List.sublist_cons_iff.mp hsubRest with hsubTail | ⟨tail', rfl, hsubTail⟩
    · -- without the acknowledgement everything is old to the bridge
      refine ⟨stale' ++ rest', [], by simp, fun f hf => ?_, .inl rfl⟩
      rcases List.mem_append.mp hf with hf | hf
      · exact hstale' f hf
      · obtain ⟨fresh, hframes, hfresh⟩ := htail.sublist hsubTail
        have hready : resetAckOf (readyOf s) = none :=
          resetAckOf_of_ne (by simp [length_readyPayload, mcLinkMaxPayload]) (by decide) _ _
        rcases hframes with rfl | rfl
        · rcases List.mem_cons.mp hf with rfl | hf
          · exact hready
          · exact (hfresh f hf).1.2
        · exact (hfresh f hf).1.2
    · exact ⟨stale', _, rfl, hstale', .inr ⟨tail', rfl, htail.sublist hsubTail⟩⟩

/-- What the bridge is still to read while it waits. -/
def Awaits (seq : UInt16) (saw : Bool) (session : LinkSession) (frames : List (List UInt8)) :
    Prop :=
  if saw then AwaitsReady (readyOf session) frames else AwaitsAck seq (readyOf session) frames

variable {raised : List (UInt8 × UInt8)} {start : StopAndWait UInt8} {m : TxMux}
  {c : C2mSystem} {seq : UInt16} {saw : Bool}

theorem Awaits.snoc {s : LinkSession} {frames : List (List UInt8)} (h : Awaits seq saw s frames)
    {frame : List UInt8} (hframe : IsFresh frame) : Awaits seq saw s (frames ++ [frame]) := by
  cases saw with
  | false => exact AwaitsAck.snoc h hframe
  | true => exact AwaitsReady.snoc h hframe

theorem Awaits.sublist {s : LinkSession} {frames frames' : List (List UInt8)}
    (h : Awaits seq saw s frames) (hsublist : frames'.Sublist frames) :
    Awaits seq saw s frames' := by
  cases saw with
  | false => exact AwaitsAck.sublist h hsublist
  | true => exact AwaitsReady.sublist h hsublist

/-- The firmware has handled the reset; the bridge has not read both answers. -/
structure Awaiting (seq : UInt16) (saw : Bool) (m : TxMux) (c : C2mSystem) : Prop where
  tx : TxRel c.session m
  idle : m.current = none
  parser : c.session.parser.Idle
  negotiated : Negotiated c.session
  rxCap : c.session.rx.cap = mcRxRingCap
  rxItems : c.session.rx.items = []
  rxSeqExpected : c.session.rxSeqExpected = 0
  toFirmware : c.toFirmware = []
  pushed : c.pushed = c.removed ++ c.sender.pendingTcp
  taken : c.taken = c.removed
  answers : Awaits seq saw c.session (c.answers m)

theorem Awaiting.congr (h : Awaiting seq saw m c) {t : LinkSession} {m' : TxMux}
    (htx : TxRel t m') (hidle : m'.current = none) (hlink : SameLink c.session t) {saw' : Bool}
    {frames : List (List UInt8)}
    (hanswers : Awaits seq saw' c.session (frames ++ m'.waiting .control)) :
    Awaiting seq saw' m' { c with session := t, toBridge := frames } where
  tx := htx
  idle := hidle
  parser := by
    show t.parser.Idle
    rw [hlink.parser]
    exact h.parser
  negotiated := h.negotiated.sameLink hlink
  rxCap := (congrArg Ringbuf.cap hlink.rx).trans h.rxCap
  rxItems := (congrArg Ringbuf.items hlink.rx).trans h.rxItems
  rxSeqExpected := hlink.rxSeqExpected.trans h.rxSeqExpected
  toFirmware := h.toFirmware
  pushed := h.pushed
  taken := h.taken
  answers := by
    have hready : readyOf t = readyOf c.session := by
      rw [readyOf, readyPayload_congr hlink.negotiatedPayload hlink.creditCap
        hlink.supportedRateMask hlink.activeRateProfile, readyOf]
    show Awaits seq saw' t (frames ++ m'.waiting .control)
    rw [Awaits, hready]
    exact hanswers

theorem awaiting_handleReset (h : C2mRel raised start m { c with toFirmware := [] })
    (seq : UInt16) (hkeep : c.taken = c.removed) :
    ∃ m', Awaiting seq false m' { c with
      session := (mcLinkSessionReceiveBytes c.session (resetBytes seq)).2, toFirmware := [] } := by
  have hparser : c.session.parser.Idle := h.parser
  have hlen : ([] : List UInt8).length ≤ mcLinkMaxPayload := Nat.zero_le _
  obtain ⟨frame, hframe⟩ : ∃ frame : McLinkFrame, frame = ⟨mcLinkReset, 0, seq, 0, []⟩ := ⟨_, rfl⟩
  rw [resetBytes, mcLinkSessionReceiveBytes_frame hparser hlen, handleFrame_reset _ rfl, ← hframe]
  obtain ⟨m', htx, _, hidle, _, _, hcontrol⟩ := txRel_handleReset h.tx h.idle frame
  have hreset := linkReset_handleReset c.session frame
  have hready : readyOf (handleReset c.session frame).2 = readyOf c.session := by
    rw [readyOf, readyPayload_congr (s := c.session) hreset.negotiatedPayload hreset.creditCap
      hreset.supportedRateMask hreset.activeRateProfile, readyOf]
  refine ⟨m', htx, hidle, ?_, negotiated_handleReset h.negotiated frame, ?_, ?_,
    hreset.rxSeqExpected, rfl, h.pushed, hkeep, ?_⟩
  · show (handleReset c.session frame).2.parser.Idle
    rw [hreset.parser]
    exact idle_mcLinkParserInit
  · exact (congrArg Ringbuf.cap hreset.rx).trans h.rxCap
  · exact (congrArg Ringbuf.items hreset.rx).trans (List.drop_length ..)
  · show AwaitsAck seq (readyOf (handleReset c.session frame).2)
      (c.toBridge ++ m'.waiting .control)
    rw [hcontrol, hready, hframe]
    refine ⟨c.toBridge, _, rfl, fun f hf => (h.answers f ?_).2, .inr ⟨_, rfl, [], .inl rfl, ?_⟩⟩
    · exact List.mem_append_left _ hf
    · simp

theorem Awaiting.ready (h : Awaiting seq true m c) {fresh : List (List UInt8)}
    (hfresh : ∀ f ∈ fresh ++ m.waiting .control, IsFresh f) :
    ∃ raised start, C2mRel raised start m { c with
      sender := c.sender.resetLinkStatePreservingPending c.session.negotiatedPayload.toNat
        c.session.creditCap
      toBridge := fresh } := by
  refine ⟨_, _, h.tx, h.idle, h.parser, h.negotiated, h.rxCap, rfl, ?_,
    fun f hf => (hfresh f hf).1, ?_, h.pushed, ⟨?_, .refl⟩, rfl⟩
  · simp [h.toFirmware]
  · intro o ho
    exact absurd ho (by simp [C2mSender.resetLinkStatePreservingPending])
  · have hfree : c.session.rx.free = mcRxRingCap := by
      rw [Ringbuf.free, Ringbuf.len, h.rxItems, h.rxCap]
      rfl
    refine StopAndWait.inv_of_idle ?_ ?_ rfl ?_ ?_ ?_
    · simp [C2mSystem.abstraction, h.toFirmware]
    · intro b hb
      obtain ⟨frame, hframe, hb⟩ := List.mem_filterMap.mp hb
      obtain ⟨hseq, hcredit⟩ := (hfresh frame hframe).2.2 b hb
      refine ⟨hseq.le.trans (Nat.zero_le _), ?_⟩
      show b.2 ≤ c.session.rx.free
      rwa [hfree]
    · show (0 : UInt16).toNat = c.session.rxSeqExpected.toNat
      rw [h.rxSeqExpected]
    · show c.taken ++ c.session.rx.items = c.removed
      rw [h.rxItems, List.append_nil, h.taken]
    · show c.session.creditCap.toNat ≤ c.session.rx.free
      rw [hfree]
      exact h.negotiated.credit.2.trans (by decide)

/-- How the system stands: no reset is under way, the `RESET` may still reach the firmware,
or the firmware has handled it. -/
def ResetRel (r : ResetSystem) : Prop :=
  match r.waiting with
  | none => ∃ raised start m, C2mRel raised start m r.link
  | some (seq, saw) =>
    (saw = false ∧ ∃ frames raised start m,
      C2mRel raised start m { r.link with toFirmware := frames } ∧
        (r.link.toFirmware = frames ∨ r.link.toFirmware = frames ++ [resetBytes seq])) ∨
    ∃ m, Awaiting seq saw m r.link

theorem waitReceive_of_none {frame : List UInt8} {rest : List (List UInt8)}
    (hframe : c.toBridge = frame :: rest) {saw' : Bool}
    (hevent : resetWaitEvent seq saw (decodeEvent frame) = (saw', none)) :
    waitReceive c seq saw =
      { link := { c with toBridge := rest }, waiting := some (seq, saw') } := by
  simp only [waitReceive, hframe, hevent]

theorem waitReceive_of_some {frame : List UInt8} {rest : List (List UInt8)}
    (hframe : c.toBridge = frame :: rest) {saw' : Bool} {ready : Bridge.ReadyState}
    (hevent : resetWaitEvent seq saw (decodeEvent frame) = (saw', some ready)) :
    waitReceive c seq saw =
      { link := { c with
          sender := c.sender.resetLinkStatePreservingPending ready.negotiatedPayload
            ready.initialCredit
          toBridge := rest }
        waiting := none } := by
  simp only [waitReceive, hframe, hevent]

theorem Awaiting.waitReceive (h : Awaiting seq saw m c) : ResetRel (waitReceive c seq saw) := by
  cases hframe : c.toBridge with
  | nil =>
    simp only [StarrySky.System.waitReceive, hframe]
    exact .inr ⟨m, h⟩
  | cons frame rest =>
    have hanswers := h.answers
    rw [C2mSystem.answers, hframe, List.cons_append] at hanswers
    -- the frame changes nothing but what the bridge has seen
    have hskip {saw' : Bool} (hevent : resetWaitEvent seq saw (decodeEvent frame) = (saw', none))
        (hrest : Awaits seq saw' c.session (rest ++ m.waiting .control)) :
        ResetRel (StarrySky.System.waitReceive c seq saw) := by
      rw [waitReceive_of_none hframe hevent]
      exact .inr ⟨m, h.congr h.tx h.idle (.refl _) hrest⟩
    cases saw with
    | false =>
      obtain ⟨stale, rest', heq, hstale, hrest'⟩ := hanswers
      cases stale with
      | cons old stale =>
        obtain ⟨rfl, htail⟩ := List.cons.inj heq
        refine hskip (resetWaitEvent_of_none (hstale _ (by simp)) seq (.inl rfl)) ?_
        exact ⟨stale, rest', htail, fun f hf => hstale f (by simp [hf]), hrest'⟩
      | nil =>
        rcases hrest' with rfl | ⟨tail, rfl, htail⟩
        · simp at heq
        · obtain ⟨rfl, rfl⟩ := List.cons.inj heq
          exact hskip (resetWaitEvent_resetAck seq false) htail
    | true =>
      obtain ⟨fresh, heq | heq, hfresh⟩ := hanswers
      · obtain ⟨rfl, rfl⟩ := List.cons.inj heq
        rw [waitReceive_of_some hframe (resetWaitEvent_ready h.negotiated seq)]
        obtain ⟨raised, start, hrel⟩ := h.ready hfresh
        exact ⟨raised, start, m, hrel⟩
      · have hfirst := hfresh frame (by simp [← heq])
        refine hskip (resetWaitEvent_of_none hfirst.1.2 seq (.inr hfirst.2.1)) ?_
        exact ⟨_, .inr rfl, fun f hf => hfresh f (by simp [← heq, hf])⟩

theorem Awaiting.waitStep (h : Awaiting seq saw m c) (op : C2mOp) :
    ResetRel (waitStep c seq saw op) := by
  -- no client byte is in the firmware, and none reaches it
  have hstay : ResetRel { link := c, waiting := some (seq, saw) } := .inr ⟨m, h⟩
  have hsession {t : LinkSession} {m' : TxMux} (htx : TxRel t m') (hidle : m'.current = none)
      (hlink : SameLink c.session t)
      (hanswers : Awaits seq saw c.session (c.toBridge ++ m'.waiting .control)) :
      ResetRel { link := { c with session := t }, waiting := some (seq, saw) } :=
    .inr ⟨m', h.congr htx hidle hlink hanswers⟩
  cases op with
  | push data => exact hstay
  | pushFiltered data => exact hstay
  | send now => exact hstay
  | retransmit now timeout => exact hstay
  | bridgeReceive => exact h.waitReceive
  | loseToFirmware index =>
    simp only [StarrySky.System.waitStep, linkStep, c2mStep, h.toFirmware, List.eraseIdx_nil]
    refine .inr ⟨m, ?_⟩
    exact ⟨h.tx, h.idle, h.parser, h.negotiated, h.rxCap, h.rxItems, h.rxSeqExpected, rfl,
      h.pushed, h.taken, h.answers⟩
  | loseToBridge index =>
    refine .inr ⟨m, h.congr h.tx h.idle (.refl _) (h.answers.sublist ?_)⟩
    exact (List.eraseIdx_sublist _ index).append (List.Sublist.refl _)
  | firmwareReceive =>
    simp only [StarrySky.System.waitStep, linkStep, c2mStep, h.toFirmware]
    exact hstay
  | takeRx maxLen =>
    have hread : c.session.rx.read maxLen = ([], c.session.rx) :=
      Prod.ext (by simp [h.rxItems]) (Ringbuf.ext rfl (by simp [h.rxItems]))
    simp only [StarrySky.System.waitStep, linkStep, c2mStep, hread, List.append_nil]
    exact hstay
  | creditConsumed consumedLen =>
    have hlink := sameLink_queueAckC2m c.session 0
    show ResetRel { link := { c with session := (queueAckC2m c.session 0).2 }
                    waiting := some (seq, saw) }
    rcases queueAckC2m_cases c.session 0 with ⟨hfree, hqueue⟩ | hqueue
    · rw [hqueue] at hlink ⊢
      refine hsession (h.tx.enqueueAck hfree) h.idle hlink ?_
      have hsnoc := h.answers.snoc (isFresh_ackFrame h.rxCap)
      rwa [C2mSystem.answers, List.append_assoc] at hsnoc
    · rw [hqueue] at hlink ⊢
      exact hsession (h.tx.congr (sameTx_countError _)) h.idle hlink h.answers
  | queueServerTx serverTx =>
    show ResetRel { link := { c with
                      session := (mcLinkSessionQueueServerTx c.session serverTx).2.1 }
                    waiting := some (seq, saw) }
    rcases mcLinkSessionQueueServerTx_cases c.session serverTx with
      hq | hq | ⟨n, payload, _, _, _, hlen, hmax, hfree, hq⟩
    · rw [hq]
      exact hstay
    · rw [hq]
      refine hsession (h.tx.congr (sameTx_countError _)) h.idle ?_ h.answers
      exact ⟨rfl, rfl, rfl, rfl, rfl, rfl, rfl, rfl, rfl, rfl⟩
    · rw [hq]
      refine .inr ⟨_, h.tx.enqueueData (hlen ▸ hmax) hfree, h.idle, h.parser, ?_, h.rxCap,
        h.rxItems, h.rxSeqExpected, h.toFirmware, h.pushed, h.taken, ?_⟩
      · exact ⟨h.negotiated.1, h.negotiated.2, h.negotiated.3, h.negotiated.4, h.negotiated.5⟩
      · have hanswers : C2mSystem.answers (m.enqueue .data (mcLinkFrameBytes mcLinkDataM2c
            c.session.txSeqNext c.session.rxSeqExpected payload)) c = c.answers m := by
          simp [C2mSystem.answers, Mux.enqueue]
        show Awaits seq saw c.session (C2mSystem.answers _ c)
        rw [hanswers]
        exact h.answers
  | transmit =>
    obtain ⟨m', htx, hidle, hlink, _, hanswers⟩ := answers_transmit h.tx h.idle
    refine .inr ⟨m', h.congr htx hidle hlink ?_⟩
    show Awaits seq saw c.session (c.transmit.answers m')
    rcases hanswers with heq | ⟨frame, hframe, heq⟩
    · rw [heq]
      exact h.answers
    · rw [heq]
      exact h.answers.snoc (isFresh_data hframe)

theorem C2mRel.waitStep {frames : List (List UInt8)}
    (h : C2mRel raised start m { c with toFirmware := frames })
    (hframes : c.toFirmware = frames ∨ c.toFirmware = frames ++ [resetBytes seq]) (op : C2mOp)
    (hkeep : KeepsStream { link := c, waiting := some (seq, false) } (.link op)) :
    ResetRel (waitStep c seq false op) := by
  have hrel {c' : C2mSystem} {m' : TxMux} (heq : c'.toFirmware = c.toFirmware)
      (h' : C2mRel raised start m' { c' with toFirmware := frames }) :
      ResetRel { link := c', waiting := some (seq, false) } :=
    .inl ⟨rfl, frames, raised, start, m', h', by rw [heq]; exact hframes⟩
  have hstay : ResetRel { link := c, waiting := some (seq, false) } := hrel rfl h
  cases op with
  | push data => exact hstay
  | pushFiltered data => exact hstay
  | send now => exact hstay
  | retransmit now timeout => exact hstay
  | bridgeReceive =>
    show ResetRel (waitReceive c seq false)
    cases hframe : c.toBridge with
    | nil =>
      simp only [waitReceive, hframe]
      exact hstay
    | cons frame rest =>
      have hanswer := h.answers frame (by simp [C2mSystem.answers, hframe])
      rw [waitReceive_of_none hframe (resetWaitEvent_of_none hanswer.2 seq (.inl rfl))]
      exact hrel rfl (h.loseToBridge (by simp [hframe]))
  | loseToFirmware index =>
    have hlost : ∃ frames', frames'.Sublist frames ∧ (c.toFirmware.eraseIdx index = frames' ∨
        c.toFirmware.eraseIdx index = frames' ++ [resetBytes seq]) := by
      rcases hframes with heq | heq
      · exact ⟨_, heq ▸ List.eraseIdx_sublist _ index, .inl rfl⟩
      · rw [heq]
        by_cases hindex : index < frames.length
        · exact ⟨_, List.eraseIdx_sublist _ index, .inr (List.eraseIdx_append_of_lt_length hindex _)⟩
        · rw [List.eraseIdx_append_of_length_le (Nat.le_of_not_lt hindex)]
          cases index - frames.length with
          | zero => exact ⟨frames, .refl _, .inl (by simp)⟩
          | succ n => exact ⟨frames, .refl _, .inr (by simp)⟩
    obtain ⟨frames', hsublist, hframes'⟩ := hlost
    exact .inl ⟨rfl, frames', raised, start, m, h.loseToFirmware hsublist, hframes'⟩
  | loseToBridge index => exact hrel rfl (h.loseToBridge (List.eraseIdx_sublist _ index))
  | firmwareReceive =>
    cases frames with
    | nil =>
      rcases hframes with heq | heq
      · simp only [StarrySky.System.waitStep, linkStep, c2mStep, heq]
        exact hstay
      · have hnext : resetIsNext c = true := by
          have hlen : ([] : List UInt8).length ≤ mcLinkMaxPayload := Nat.zero_le _
          simp only [resetIsNext, heq, List.nil_append, resetBytes,
            mcLinkDecodeFrame_mcLinkFrameBytes hlen]
          rfl
        obtain ⟨m', hawaiting⟩ := awaiting_handleReset h seq (hkeep hnext)
        simp only [StarrySky.System.waitStep, linkStep, c2mStep, heq, List.nil_append]
        exact .inr ⟨m', hawaiting⟩
    | cons frame rest =>
      obtain ⟨m', hm'⟩ := h.firmwareReceive rfl
      rcases hframes with heq | heq
      · simp only [StarrySky.System.waitStep, linkStep, c2mStep, heq]
        exact .inl ⟨rfl, rest, raised, start, m', hm', .inl rfl⟩
      · simp only [StarrySky.System.waitStep, linkStep, c2mStep, heq, List.cons_append]
        exact .inl ⟨rfl, rest, raised, start, m', hm', .inr rfl⟩
  | takeRx maxLen => exact hrel rfl (h.takeRx maxLen)
  | creditConsumed consumedLen =>
    obtain ⟨m', hm'⟩ := h.queueAck (show (0 : UInt16).toNat ≤ _ from Nat.zero_le _)
    exact hrel rfl hm'
  | queueServerTx serverTx =>
    obtain ⟨m', hm'⟩ := h.queueServerTx serverTx
    exact hrel rfl hm'
  | transmit =>
    obtain ⟨m', hm'⟩ := h.transmit
    exact hrel rfl hm'

/-- A step keeps the relation, if a `RESET` handled in it keeps the stream. -/
theorem ResetRel.step {r : ResetSystem} (h : ResetRel r) {op : ResetOp} (hkeep : KeepsStream r op) :
    ResetRel (resetStep r op) := by
  obtain ⟨c, waiting⟩ := r
  cases waiting with
  | none =>
    obtain ⟨raised, start, m, hrel⟩ := h
    cases op with
    | startReset seq => exact .inl ⟨rfl, c.toFirmware, raised, start, m, hrel, .inr rfl⟩
    | link op =>
      rcases hrel.step op with ⟨c', m', hstep, hrel'⟩ | ⟨hstep, _⟩
      · simp only [resetStep, linkStep, hstep]
        exact ⟨raised, start, m', hrel'⟩
      · simp only [resetStep, linkStep, hstep]
        exact ⟨raised, start, m, hrel⟩
  | some waiting =>
    obtain ⟨seq, saw⟩ := waiting
    cases op with
    | startReset seq' => exact h
    | link op =>
      rcases h with ⟨rfl, frames, raised, start, m, hrel, hframes⟩ | ⟨m, hawaiting⟩
      · exact hrel.waitStep hframes op hkeep
      · exact hawaiting.waitStep op

theorem ResetRel.run {r : ResetSystem} (h : ResetRel r) {ops : List ResetOp}
    (hkeep : KeepingRun r ops) : ResetRel (resetRun r ops) := by
  induction ops generalizing r with
  | nil => exact h
  | cons op ops ih => exact ih (h.step hkeep.1) hkeep.2

theorem ResetRel.delivered {r : ResetSystem} (h : ResetRel r) :
    r.link.taken <+: r.link.pushed ∧ r.link.removed <+: r.link.written ∧
      r.link.written <+: r.link.pushed := by
  have hpre {c : C2mSystem} (h : c.written <+: c.pushed ∧ c.removed <+: c.written) :
      c.taken <+: c.pushed ∧ c.removed <+: c.written ∧ c.written <+: c.pushed :=
    ⟨(List.prefix_append _ _).trans h.1, h.2, h.1⟩
  obtain ⟨c, waiting⟩ := r
  cases waiting with
  | none =>
    obtain ⟨_, _, _, hrel⟩ := h
    exact hpre hrel.delivered
  | some waiting =>
    rcases h with ⟨_, _, _, _, _, hrel, _⟩ | ⟨m, hawaiting⟩
    · exact hpre hrel.delivered
    · have hwritten : c.written = c.removed := by
        rw [C2mSystem.written, hawaiting.rxItems, List.append_nil, hawaiting.taken]
      refine hpre ⟨?_, ?_⟩
      · rw [hwritten, hawaiting.pushed]
        exact List.prefix_append _ _
      · rw [hwritten]

/-- Continuity across resets. From a fresh link, in every run in which each `RESET` is
handled when the server has taken exactly the bytes removed from `pending_tcp`, the
server takes a prefix of what was put there, and everything removed was accepted. -/
theorem resetRun_takenIsPrefix (hstart : C2mStart c) {ops : List ResetOp}
    (hkeep : KeepingRun { link := c, waiting := none } ops) :
    (resetRun { link := c, waiting := none } ops).link.taken <+:
        (resetRun { link := c, waiting := none } ops).link.pushed ∧
      (resetRun { link := c, waiting := none } ops).link.removed <+:
        (resetRun { link := c, waiting := none } ops).link.written := by
  obtain ⟨m, hrel⟩ := hstart.rel
  have hdelivered := (ResetRel.run (r := { link := c, waiting := none }) ⟨_, _, m, hrel⟩
    hkeep).delivered
  exact ⟨hdelivered.1, hdelivered.2.1⟩

instance (r : ResetSystem) (op : ResetOp) : Decidable (KeepsStream r op) := by
  unfold KeepsStream
  split <;> infer_instance

instance decidableKeepingRun : (r : ResetSystem) → (ops : List ResetOp) →
    Decidable (KeepingRun r ops)
  | _, [] => isTrue trivial
  | r, op :: ops =>
    have := decidableKeepingRun (resetStep r op) ops
    inferInstanceAs (Decidable (_ ∧ _))

/-- Five retransmissions, and what happens after each. -/
def retransmitFive (after : List ResetOp) : List ResetOp :=
  (List.range 5).flatMap fun i => .link (.retransmit (100 * (i + 1)) 100) :: after

/-- The reset, both answers, and the first frame after them. -/
def resetOps : List ResetOp :=
  [.startReset 1, .link .firmwareReceive, .link .transmit, .link .transmit, .link .bridgeReceive,
    .link .bridgeReceive, .link (.send 900), .link .firmwareReceive, .link (.takeRx 512)]

/-- The data frame is lost six times, which makes the bridge reset the link. -/
def lostDataOps : List ResetOp :=
  [.link (.push [1, 2]), .link (.send 0), .link .firmwareReceive, .link (.takeRx 512),
      .link .transmit, .link .bridgeReceive, .link (.push [3]), .link (.send 0),
      .link (.loseToFirmware 0)] ++
    retransmitFive [.link (.loseToFirmware 0)] ++ resetOps

theorem resetRun_takenIsPrefix_lostData :
    (resetRun { link := c2mBoot, waiting := none } lostDataOps).link.taken = [1, 2, 3] ∧
      (resetRun { link := c2mBoot, waiting := none } lostDataOps).link.taken <+:
        (resetRun { link := c2mBoot, waiting := none } lostDataOps).link.pushed :=
  ⟨by decide +kernel, (resetRun_takenIsPrefix c2mStart_boot (by decide +kernel)).1⟩

/-- The data frame arrives, and its acknowledgement is lost six times. -/
def lostAckOps : List ResetOp :=
  [.link (.push [1]), .link (.send 0), .link .firmwareReceive, .link (.takeRx 512),
      .link (.creditConsumed 1), .link .transmit, .link (.loseToBridge 0), .link .transmit,
      .link (.loseToBridge 0)] ++
    retransmitFive [.link .firmwareReceive, .link .transmit, .link (.loseToBridge 0)] ++ resetOps

/-- The server takes the client's one byte twice. -/
theorem resetRun_takesTwice :
    C2mStart c2mBoot ∧
      (resetRun { link := c2mBoot, waiting := none } lostAckOps).link.taken = [1, 1] ∧
      ¬ (resetRun { link := c2mBoot, waiting := none } lostAckOps).link.taken <+:
        (resetRun { link := c2mBoot, waiting := none } lostAckOps).link.pushed := by
  have hrun : (resetRun { link := c2mBoot, waiting := none } lostAckOps).link.taken = [1, 1] ∧
      (resetRun { link := c2mBoot, waiting := none } lostAckOps).link.pushed = [1] := by
    decide +kernel
  refine ⟨c2mStart_boot, hrun.1, ?_⟩
  rw [hrun.1, hrun.2]
  decide

end StarrySky.System
