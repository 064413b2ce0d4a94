import StarrySky.Firmware.DataC2m
import StarrySky.Link.ParserStream

/-! Several frames in one read. They are handled as if each came alone, up to the first one
that resets the link: the reset starts the parser afresh, and what the read held behind that
frame is gone. -/

namespace StarrySky.Firmware
open StarrySky.Base StarrySky.Link

def helloAgrees : List UInt8 → Bool
  | [p0, p1, c0, c1, _, _] => ofLeBytes p0 p1 ≠ 0 && ofLeBytes c0 c1 ≠ 0
  | _ => false

/-- A `RESET`, or a `HELLO` with a payload size and a credit to agree on. -/
def resetsLink (frame : McLinkFrame) : Bool :=
  frame.type = mcLinkReset || (frame.type = mcLinkHello && helloAgrees frame.payload)

def withParser (result : Bool × LinkSession) (parser : McLinkParser) : Bool × LinkSession :=
  (result.1, { result.2 with parser := parser })

theorem queueControlFrame_withParser (s : LinkSession) (parser : McLinkParser) (type : UInt8)
    (seq ack : UInt16) (payload : List UInt8) :
    queueControlFrame { s with parser := parser } type seq ack payload =
      withParser (queueControlFrame s type seq ack payload) parser := by
  have hring : ({ s with parser := parser } : LinkSession).ring .control = s.ring .control := rfl
  rw [queueControlFrame, queueControlFrame, queueFrame_eq, queueFrame_eq, hring]
  split_ifs
  · rfl
  · rfl

theorem queueError_withParser (s : LinkSession) (parser : McLinkParser) (code detail : UInt8) :
    queueError { s with parser := parser } code detail =
      withParser (queueError s code detail) parser :=
  queueControlFrame_withParser (s.raise code detail) parser mcLinkError 0 0 [code, detail]

theorem queueAckC2m_withParser (s : LinkSession) (parser : McLinkParser) (ack : UInt16) :
    queueAckC2m { s with parser := parser } ack = withParser (queueAckC2m s ack) parser := by
  have hqueue := queueControlFrame_withParser s parser mcLinkAckC2m 0 ack
    (leBytes (rxFreeCredit s))
  have hcredit : rxFreeCredit { s with parser := parser } = rxFreeCredit s := rfl
  rw [queueAckC2m, queueAckC2m, hcredit, hqueue]
  obtain ⟨queued, t⟩ := queueControlFrame s mcLinkAckC2m 0 ack (leBytes (rxFreeCredit s))
  cases queued <;> rfl

theorem handleDataC2m_withParser (s : LinkSession) (parser : McLinkParser) (frame : McLinkFrame) :
    handleDataC2m { s with parser := parser } frame =
      withParser (handleDataC2m s frame) parser := by
  have herror := queueError_withParser s parser
  unfold handleDataC2m
  dsimp only
  split_ifs
  · exact herror _ _
  · exact queueAckC2m_withParser { s with c2mDuplicateFrames := s.c2mDuplicateFrames + 1 }
      parser _
  · rw [herror]
    rfl
  · exact herror _ _
  · rw [herror]
    rfl
  · rw [queueError_withParser { s with rx := (s.rx.write frame.payload).2 } parser]
    rfl
  · exact queueAckC2m_withParser (s.accept frame.payload) parser _

theorem handleFrame_withParser (s : LinkSession) (parser : McLinkParser) {frame : McLinkFrame}
    (hkeeps : resetsLink frame = false) :
    handleFrame { s with parser := parser } frame = withParser (handleFrame s frame) parser := by
  rw [resetsLink, Bool.or_eq_false_iff, Bool.and_eq_false_iff] at hkeeps
  have hreset : ¬ frame.type = mcLinkReset := of_decide_eq_false hkeeps.1
  unfold handleFrame
  rw [if_neg hreset, if_neg hreset]
  split_ifs with hhello
  · have hrefused := hkeeps.2.resolve_left (by simp [hhello])
    have herror := queueError_withParser s parser mcLinkErrBadLength 0
    unfold handleHello
    split
    · rename_i p0 p1 c0 c1 m0 m1 hpayload
      rw [hpayload, helloAgrees] at hrefused
      have hzero : ofLeBytes p0 p1 = 0 ∨ ofLeBytes c0 c1 = 0 := by simpa [or_iff_not_imp_left] using hrefused
      dsimp only
      rw [if_pos hzero, if_pos hzero]
      exact herror
    · exact herror
  · exact handleDataC2m_withParser s parser frame
  · exact queueControlFrame_withParser s parser _ _ _ _
  · exact queueControlFrame_withParser s parser _ _ _ _
  · exact queueError_withParser s parser _ _

theorem handleFrame_resetsLink (s : LinkSession) (parser : McLinkParser) {frame : McLinkFrame}
    (hresets : resetsLink frame = true) :
    handleFrame { s with parser := parser } frame = handleFrame s frame ∧
      (handleFrame s frame).2.parser = mcLinkParserInit := by
  rw [resetsLink, Bool.or_eq_true, Bool.and_eq_true] at hresets
  unfold handleFrame
  rcases hresets with hreset | ⟨hhello, hagrees⟩
  · have htype : frame.type = mcLinkReset := of_decide_eq_true hreset
    have hne : ¬ frame.type = mcLinkHello := by
      rw [htype]
      decide
    rw [if_neg hne, if_neg hne, if_pos htype, if_pos htype]
    exact ⟨rfl, parser_handleReset s frame⟩
  · have htype : frame.type = mcLinkHello := of_decide_eq_true hhello
    rw [if_pos htype, if_pos htype]
    unfold handleHello
    split
    · rename_i p0 p1 c0 c1 m0 m1 hpayload
      rw [hpayload, helloAgrees] at hagrees
      have hnonzero : ¬ (ofLeBytes p0 p1 = 0 ∨ ofLeBytes c0 c1 = 0) := by
        simpa [not_or] using hagrees
      dsimp only
      rw [if_neg hnonzero, if_neg hnonzero]
      refine ⟨rfl, ?_⟩
      rw [(sameLink_queueReady _).parser]
      exact (linkReset_resetLinkState s).parser
    · rename_i hshort
      exfalso
      unfold helloAgrees at hagrees
      split at hagrees
      · exact hshort _ _ _ _ _ _ ‹_›
      · exact Bool.false_ne_true hagrees

theorem parser_of_keeps {s : LinkSession} {frame : McLinkFrame}
    (hkeeps : resetsLink frame = false) : (handleFrame s frame).2.parser = s.parser := by
  have hsame := handleFrame_withParser s s.parser hkeeps
  exact congrArg (fun result => result.2.parser) hsame

/-- A segment that decodes, of a length the parser takes. -/
def IsLinkSegment (segment : List UInt8) : Prop :=
  IsFrame mcLinkDelimiter segment ∧ (linkSegment segment).isSome

theorem IsLinkSegment.exists_frame {segment : List UInt8} (h : IsLinkSegment segment) :
    ∃ frame, linkSegment segment = some frame ∧ segment.length ≤ mcLinkMaxFrameLen ∧
      mcLinkDecodeFrame segment = some frame := by
  obtain ⟨frame, hframe⟩ := Option.isSome_iff_exists.mp h.2
  have hlen : segment.length ≤ mcLinkMaxFrameLen := by
    by_contra hlong
    rw [linkSegment, if_neg hlong] at hframe
    cases hframe
  exact ⟨frame, hframe, hlen, linkSegment_of_le hlen ▸ hframe⟩

theorem isLinkSegment_mcLinkFrameBytes {payload : List UInt8}
    (hlen : payload.length ≤ mcLinkMaxPayload) (type : UInt8) (seq ack : UInt16) :
    IsLinkSegment (mcLinkFrameBytes type seq ack payload) := by
  refine ⟨isFrame_mcLinkFrameBytes type seq ack payload, ?_⟩
  rw [linkSegment_of_le (length_mcLinkFrameBytes_le hlen type seq ack),
    mcLinkDecodeFrame_mcLinkFrameBytes hlen]
  rfl

/-- The segments up to the first that resets the link. One that is skipped resets nothing. -/
def untilReset : Bool → List (List UInt8) → List (List UInt8)
  | _, [] => []
  | skipping, segment :: segments =>
    if !skipping && (linkSegment segment).any resetsLink then [segment]
    else segment :: untilReset false segments

/-- One call for each segment; the first component says that all were accepted. -/
def receiveEach : LinkSession → List (List UInt8) → Bool × LinkSession
  | s, [] => (true, s)
  | s, segment :: segments =>
    let received := mcLinkSessionReceiveBytes s segment
    let rest := receiveEach received.2 segments
    (received.1 && rest.1, rest.2)

theorem receiveEach_cons (s : LinkSession) (segment : List UInt8) (segments : List (List UInt8)) :
    receiveEach s (segment :: segments) =
      ((mcLinkSessionReceiveBytes s segment).1 &&
          (receiveEach (mcLinkSessionReceiveBytes s segment).2 segments).1,
        (receiveEach (mcLinkSessionReceiveBytes s segment).2 segments).2) := rfl

theorem receiveFrames_resetsLink {s : LinkSession} (parser : McLinkParser) {frame : McLinkFrame}
    (hresets : resetsLink frame = true) (hok : (handleFrame s frame).1 = true) :
    receiveFrames { s with parser := parser } (some frame) = (true, (handleFrame s frame).2) := by
  obtain ⟨hsame, hinit⟩ := handleFrame_resetsLink s parser hresets
  have hidle : (handleFrame s frame).2.parser.Idle := by
    rw [hinit]
    exact idle_mcLinkParserInit
  rw [receiveFrames, hsame]
  dsimp only
  rw [if_pos hok, mcLinkParserFeed_idle hidle, receiveFrames]

theorem receiveFrames_keeps {s : LinkSession} (parser : McLinkParser) {frame : McLinkFrame}
    (hkeeps : resetsLink frame = false) (hok : (handleFrame s frame).1 = true) :
    receiveFrames { s with parser := parser } (some frame) =
      receiveFrames { (handleFrame s frame).2 with parser := (mcLinkParserFeed parser []).2 }
        (mcLinkParserFeed parser []).1 := by
  rw [receiveFrames, handleFrame_withParser s parser hkeeps]
  exact if_pos hok

theorem receiveFrames_segments {segments : List (List UInt8)}
    (hsegments : ∀ segment ∈ segments, IsLinkSegment segment) {s : LinkSession}
    (hidle : s.parser.Idle) {segment : List UInt8} (hsegment : IsLinkSegment segment)
    {frame : McLinkFrame} (hframe : linkSegment segment = some frame)
    (haccept : (receiveEach s (segment :: segments)).1 = true) :
    receiveFrames { s with parser := { s.parser with buf := segments.flatten } } (some frame) =
      (true, (receiveEach s (untilReset false (segment :: segments))).2) := by
  induction segments generalizing s segment frame with
  | nil =>
    obtain ⟨frame', hframe', hlen, hdecode⟩ := hsegment.exists_frame
    cases hframe.symm.trans hframe'
    have halone := mcLinkSessionReceiveBytes_decode hidle hsegment.1 hlen hdecode
    rw [receiveEach_cons, halone] at haccept
    obtain ⟨hok, _⟩ := Bool.and_eq_true_iff.mp haccept
    have hfirst : untilReset false [segment] = [segment] := by
      rw [untilReset]
      exact ite_self _
    rw [hfirst, receiveEach_cons, halone]
    cases hresets : resetsLink frame with
    | true => exact receiveFrames_resetsLink _ hresets hok
    | false =>
      have hparser : ({ s.parser with buf := [] } : McLinkParser) = s.parser := by
        rw [← hidle.1]
      rw [receiveFrames_keeps _ hresets hok, List.flatten_nil, hparser,
        mcLinkParserFeed_idle hidle, receiveFrames, ← parser_of_keeps hresets]
      rfl
  | cons next segments ih =>
    obtain ⟨frame', hframe', hlen, hdecode⟩ := hsegment.exists_frame
    cases hframe.symm.trans hframe'
    have halone := mcLinkSessionReceiveBytes_decode hidle hsegment.1 hlen hdecode
    rw [receiveEach_cons, halone] at haccept
    obtain ⟨hok, hrest⟩ := Bool.and_eq_true_iff.mp haccept
    rw [untilReset, hframe, Option.any_some, Bool.not_false, Bool.true_and]
    cases hresets : resetsLink frame with
    | true =>
      -- the segments behind the reset stay in the parser that is thrown away
      rw [if_pos rfl, receiveEach_cons, halone]
      exact receiveFrames_resetsLink _ hresets hok
    | false =>
      have hnext := hsegments next List.mem_cons_self
      obtain ⟨nextFrame, hnextFrame, _, hnextDecode⟩ := hnext.exists_frame
      have hkept := parser_of_keeps (s := s) hresets
      have hfeed := @mcLinkParserFeed_buffered { s.parser with buf := (next :: segments).flatten }
        hidle.2 next hnext.1 nextFrame hnextDecode segments.flatten rfl []
      have hidle' : (handleFrame s frame).2.parser.Idle := by
        rw [hkept]
        exact hidle
      have hloop := ih (fun x hx => hsegments x (List.mem_cons_of_mem _ hx)) hidle' hnext
        hnextFrame hrest
      rw [hkept] at hloop
      rw [receiveFrames_keeps _ hresets hok, hfeed, if_neg Bool.false_ne_true, receiveEach_cons,
        halone]
      exact hloop

theorem receiveBytes_nil {s : LinkSession} (hidle : s.parser.Idle) :
    mcLinkSessionReceiveBytes s [] = (true, s) := by
  rw [mcLinkSessionReceiveBytes, mcLinkParserFeed_idle hidle]
  exact receiveFrames.eq_1 s

theorem receiveBytes_of_idle {s : LinkSession} (hidle : s.parser.Idle)
    {segments : List (List UInt8)} (hsegments : ∀ segment ∈ segments, IsLinkSegment segment)
    (hlen : segments.flatten.length ≤ 512) (haccept : (receiveEach s segments).1 = true) :
    mcLinkSessionReceiveBytes s segments.flatten =
      (true, (receiveEach s (untilReset false segments)).2) := by
  cases segments with
  | nil => exact receiveBytes_nil hidle
  | cons segment segments =>
    have hsegment := hsegments segment List.mem_cons_self
    obtain ⟨frame, hframe, hshort, hdecode⟩ := hsegment.exists_frame
    have hpos := hsegment.1.length_pos
    rw [List.flatten_cons, List.length_append] at hlen
    have hrest : segments.flatten.length < mcLinkMaxFrameLen :=
      lt_of_lt_of_le (Nat.lt_add_of_pos_left hpos) hlen
    rw [List.flatten_cons, mcLinkSessionReceiveBytes,
      mcLinkParserFeed_decode hidle hsegment.1 hshort hdecode hrest]
    exact receiveFrames_segments (fun x hx => hsegments x (List.mem_cons_of_mem _ hx)) hidle
      hsegment hframe haccept

/-- Segments that are accepted one by one, read at once: those up to the first that resets the
link are handled as they were alone, and those behind it are lost. -/
theorem mcLinkSessionReceiveBytes_flatten (s : LinkSession) (hbuf : s.parser.buf = [])
    (segments : List (List UInt8)) (hsegments : ∀ segment ∈ segments, IsLinkSegment segment)
    (hlen : segments.flatten.length ≤ 512) (haccept : (receiveEach s segments).1 = true) :
    mcLinkSessionReceiveBytes s segments.flatten =
      (true, (receiveEach s (untilReset s.parser.discarding segments)).2) := by
  cases hdiscarding : s.parser.discarding with
  | false => exact receiveBytes_of_idle ⟨hbuf, hdiscarding⟩ hsegments hlen haccept
  | true =>
    cases segments with
    | nil =>
      have hempty : ({ s.parser with buf := [] } : McLinkParser) = s.parser := by rw [← hbuf]
      rw [List.flatten_nil, mcLinkSessionReceiveBytes, mcLinkParserFeed, if_pos hdiscarding,
        hempty, parserFeedBytes, parserTryOne_of_notMem (by simp [hbuf]) (by simp [hbuf])]
      exact receiveFrames.eq_1 s
    | cons segment segments =>
      -- the first segment ends the one that is being skipped
      obtain ⟨t, ht⟩ : ∃ t, t = { s with parser := { s.parser with discarding := false } } :=
        ⟨_, rfl⟩
      have hidle : t.parser.Idle := by
        rw [ht]
        exact ⟨hbuf, rfl⟩
      have hskip : ∀ src, mcLinkSessionReceiveBytes s (segment ++ src) =
          mcLinkSessionReceiveBytes t src := by
        intro src
        have hframe := (hsegments segment List.mem_cons_self).1
        rw [mcLinkSessionReceiveBytes, mcLinkParserFeed_skipping hdiscarding hbuf hframe, ht]
        rfl
      have halone := hskip []
      rw [List.append_nil, receiveBytes_nil hidle] at halone
      rw [receiveEach_cons, halone, Bool.true_and] at haccept
      rw [List.flatten_cons, List.length_append] at hlen
      rw [List.flatten_cons, hskip, untilReset, Bool.not_true, Bool.false_and,
        if_neg Bool.false_ne_true, receiveEach_cons, halone]
      exact receiveBytes_of_idle hidle (fun x hx => hsegments x (List.mem_cons_of_mem _ hx))
        ((Nat.le_add_left _ _).trans hlen) haccept

/-- A `PING`, a byte of client data and a `RESET` in one read. -/
theorem mcLinkSessionReceiveBytes_flatten_three :
    mcLinkSessionReceiveBytes (mcLinkSessionInit (.init mcRxRingCap))
        [mcLinkFrameBytes mcLinkPing 5 0 [1], mcLinkFrameBytes mcLinkDataC2m 0 0 [2],
          mcLinkFrameBytes mcLinkReset 7 0 []].flatten =
      (true, (receiveEach (mcLinkSessionInit (.init mcRxRingCap))
        (untilReset false [mcLinkFrameBytes mcLinkPing 5 0 [1],
          mcLinkFrameBytes mcLinkDataC2m 0 0 [2], mcLinkFrameBytes mcLinkReset 7 0 []])).2) := by
  refine mcLinkSessionReceiveBytes_flatten (mcLinkSessionInit (.init mcRxRingCap)) rfl _ ?_
    (by decide +kernel) (by decide +kernel)
  intro segment hsegment
  simp only [List.mem_cons, List.not_mem_nil, or_false] at hsegment
  rcases hsegment with rfl | rfl | rfl
  · exact isLinkSegment_mcLinkFrameBytes (by decide) _ _ _
  · exact isLinkSegment_mcLinkFrameBytes (by decide) _ _ _
  · exact isLinkSegment_mcLinkFrameBytes (by decide) _ _ _

/-- A `PING` in the same read as the `RESET` before it is lost: alone it is answered. -/
theorem mcLinkSessionReceiveBytes_losesPing :
    (receiveEach (mcLinkSessionInit (.init mcRxRingCap))
        [mcLinkFrameBytes mcLinkReset 7 0 [], mcLinkFrameBytes mcLinkPing 8 0 []]).1 = true ∧
      [mcLinkFrameBytes mcLinkReset 7 0 [], mcLinkFrameBytes mcLinkPing 8 0 []].flatten.length ≤
        512 ∧
      (mcLinkSessionReceiveBytes (mcLinkSessionInit (.init mcRxRingCap))
        [mcLinkFrameBytes mcLinkReset 7 0 [], mcLinkFrameBytes mcLinkPing 8 0 []].flatten).1 =
        true ∧
      (mcLinkSessionReceiveBytes (mcLinkSessionInit (.init mcRxRingCap))
        [mcLinkFrameBytes mcLinkReset 7 0 [],
          mcLinkFrameBytes mcLinkPing 8 0 []].flatten).2.controlTx ≠
        (receiveEach (mcLinkSessionInit (.init mcRxRingCap))
          [mcLinkFrameBytes mcLinkReset 7 0 [], mcLinkFrameBytes mcLinkPing 8 0 []]).2.controlTx := by
  decide +kernel

end StarrySky.Firmware
