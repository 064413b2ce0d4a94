import StarrySky.Bridge.CheckedDecode
import StarrySky.Link.ParserStream

/-! The firmware's link codec and the bridge's agree: the encoders produce the same bytes, the
decoders accept the same strings. -/

namespace StarrySky.System
open StarrySky.Base StarrySky.Link StarrySky.Bridge.Link

theorem fromU8_toU8 {frameType : FrameType} (h : frameType.isUnknown = false) :
    FrameType.fromU8 frameType.toU8 = frameType := by
  cases frameType with
  | unknown raw => exact absurd h (by simp [FrameType.isUnknown])
  | _ => rfl

/-- One frame, made by both encoders and read by both decoders. -/
theorem mcLinkEncode_encode (frameType : FrameType) (hknown : frameType.isUnknown = false)
    (seq ack : UInt16) (payload : List UInt8) (hpayload : payload.length ≤ 497) (outCap : ℕ)
    (hcap : 512 ≤ outCap) :
    ∃ frame, mcLinkEncode frameType.toU8 seq ack payload outCap = some frame ∧
      encode frameType seq ack payload = some frame ∧ frame.length ≤ 512 ∧
      (∃ body, frame = body ++ [0] ∧ (0 : UInt8) ∉ body) ∧
      mcLinkDecodeFrame frame =
        some { type := frameType.toU8, flags := 0, seq := seq, ack := ack, payload := payload } ∧
      decodeOne frame =
        .ok { frameType := frameType, flags := 0, seq := seq, ack := ack, payload := payload } := by
  refine ⟨mcLinkFrameBytes frameType.toU8 seq ack payload, mcLinkEncode_of_le hpayload hcap _ _ _,
    encode_eq hknown hpayload seq ack, length_mcLinkFrameBytes_le hpayload _ _ _,
    isFrame_mcLinkFrameBytes _ _ _ _, mcLinkDecodeFrame_mcLinkFrameBytes hpayload _ _ _, ?_⟩
  rw [decodeOne_mcLinkFrameBytes hpayload, fromU8_toU8 hknown]

theorem mcLinkEncode_encode_ready :
    ∃ frame, mcLinkEncode FrameType.ready.toU8 0 0 [1, 0, 2] 512 = some frame ∧
      encode .ready 0 0 [1, 0, 2] = some frame ∧ frame.length ≤ 512 ∧
      (∃ body, frame = body ++ [0] ∧ (0 : UInt8) ∉ body) ∧
      mcLinkDecodeFrame frame =
        some { type := FrameType.ready.toU8, flags := 0, seq := 0, ack := 0, payload := [1, 0, 2] } ∧
      decodeOne frame =
        .ok { frameType := .ready, flags := 0, seq := 0, ack := 0, payload := [1, 0, 2] } :=
  mcLinkEncode_encode .ready rfl 0 0 [1, 0, 2] (by decide) 512 (by decide)

theorem length_le_of_cobsDecodeLoop {decoded input body : List UInt8}
    (h : Bridge.Link.cobsDecodeLoop decoded input = .ok body) : decoded.length ≤ body.length := by
  induction decoded, input using Bridge.Link.cobsDecodeLoop.induct with
  | case1 decoded =>
    rw [Bridge.Link.cobsDecodeLoop] at h
    cases h
    exact Nat.le_refl _
  | case2 decoded input => simp [Bridge.Link.cobsDecodeLoop] at h
  | case3 decoded code input hzero copyLen hcopy =>
    rw [Bridge.Link.cobsDecodeLoop, if_neg hzero, if_pos hcopy] at h
    contradiction
  | case4 decoded code input hzero copyLen hcopy more rest hgap ih =>
    rw [Bridge.Link.cobsDecodeLoop, if_neg hzero, if_neg hcopy, if_pos hgap] at h
    have := ih h
    simp only [more, List.length_append] at this
    omega
  | case5 decoded code input hzero copyLen hcopy more rest hgap ih =>
    rw [Bridge.Link.cobsDecodeLoop, if_neg hzero, if_neg hcopy, if_neg hgap] at h
    have := ih h
    simp only [more, List.length_append] at this
    omega

theorem cobsDecodeLoop_iff {dstCap : ℕ} {dst src body : List UInt8} (hdst : dst.length ≤ dstCap) :
    Link.cobsDecodeLoop dstCap dst src = some body ↔
      Bridge.Link.cobsDecodeLoop dst src = .ok body ∧ body.length ≤ dstCap := by
  -- The scratch buffer's size is the only difference between the two.
  induction dst, src using Bridge.Link.cobsDecodeLoop.induct with
  | case1 dst =>
    rw [Link.cobsDecodeLoop, Bridge.Link.cobsDecodeLoop]
    constructor
    · intro h
      cases h
      exact ⟨rfl, hdst⟩
    · rintro ⟨h, _⟩
      cases h
      rfl
  | case2 dst src => simp [Link.cobsDecodeLoop, Bridge.Link.cobsDecodeLoop]
  | case3 dst code src hzero copyLen hcopy =>
    rw [Link.cobsDecodeLoop, Bridge.Link.cobsDecodeLoop, if_neg hzero, if_neg hzero, if_pos hcopy,
      if_pos hcopy]
    simp
  | case4 dst code src hzero copyLen hcopy more rest hgap ih =>
    have hlength : more.length = dst.length + copyLen := by
      simp only [more, List.length_append, List.length_take]
      omega
    rw [Link.cobsDecodeLoop, Bridge.Link.cobsDecodeLoop, if_neg hzero, if_neg hzero, if_neg hcopy,
      if_neg hcopy]
    dsimp only
    rw [if_pos hgap, if_pos hgap]
    by_cases hcap : more.length < dstCap
    · have hroom : ¬dst.length + copyLen > dstCap := by omega
      rw [if_neg hroom, if_neg (Nat.ne_of_lt hcap)]
      exact ih (by rw [List.length_append, List.length_singleton]; exact hcap)
    · -- the block, or the zero behind it, does not fit
      have hleft : (if dst.length + copyLen > dstCap then none
          else if more.length = dstCap then none
          else Link.cobsDecodeLoop dstCap (more ++ [0]) rest) = none := by
        by_cases hroom : dst.length + copyLen > dstCap
        · exact if_pos hroom
        · rw [if_neg hroom, if_pos (by omega)]
      constructor
      · intro h
        exact absurd (hleft.symm.trans h) (Option.some_ne_none body).symm
      · rintro ⟨h, hbody⟩
        have hle : (more ++ [0]).length ≤ body.length := length_le_of_cobsDecodeLoop h
        rw [List.length_append, List.length_singleton] at hle
        omega
  | case5 dst code src hzero copyLen hcopy more rest hgap ih =>
    have hlength : more.length = dst.length + copyLen := by
      simp only [more, List.length_append, List.length_take]
      omega
    rw [Link.cobsDecodeLoop, Bridge.Link.cobsDecodeLoop, if_neg hzero, if_neg hzero, if_neg hcopy,
      if_neg hcopy]
    dsimp only
    rw [if_neg hgap, if_neg hgap]
    by_cases hcap : more.length ≤ dstCap
    · have hroom : ¬dst.length + copyLen > dstCap := by omega
      rw [if_neg hroom]
      exact ih hcap
    · have hroom : dst.length + copyLen > dstCap := by omega
      rw [if_pos hroom]
      constructor
      · intro h
        exact absurd h (Option.some_ne_none body).symm
      · rintro ⟨h, hbody⟩
        have hle : more.length ≤ body.length := length_le_of_cobsDecodeLoop h
        omega

theorem exists_mcLinkParseBody {body : List UInt8} {frame : Frame}
    (h : parseBody body = .ok frame) :
    body.length ≤ mcLinkMaxBodyLen ∧
      ∃ mcFrame, mcLinkParseBody body = some mcFrame ∧ frame = .ofMcLinkFrame mcFrame := by
  unfold parseBody at h
  split at h
  case h_2 => contradiction
  case h_1 version' type flags seq0 seq1 ack0 ack1 len0 len1 rest =>
    dsimp only at h
    split_ifs at h with hshort hversion hmax hexact
    split at h
    case h_2 => contradiction
    case h_1 crc0 crc1 tail hrest =>
      split_ifs at h with hcrc
      cases h
      refine ⟨?_, McLinkFrame.mk type flags (ofLeBytes seq0 seq1) (ofLeBytes ack0 ack1)
        (rest.take (ofLeBytes len0 len1).toNat), ?_, rfl⟩
      · rw [not_not] at hexact
        rw [hexact]
        show 9 + _ + 2 ≤ 9 + 497 + 2
        have : (ofLeBytes len0 len1).toNat ≤ 497 := Nat.le_of_not_lt hmax
        omega
      · simp only [mcLinkParseBody]
        rw [if_neg hshort, if_neg hversion, if_neg hmax, if_neg hexact, hrest]
        exact if_neg hcrc

theorem decodeOne_of_mcLinkDecodeFrame {src : List UInt8} {frame : McLinkFrame}
    (h : mcLinkDecodeFrame src = some frame) : decodeOne src = .ok (.ofMcLinkFrame frame) := by
  unfold mcLinkDecodeFrame decodeFrameWithScratch at h
  split_ifs at h with hbad
  dsimp only at h
  split_ifs at h with hlength hmem
  obtain ⟨body, hbody, hparse⟩ := Option.bind_eq_some_iff.mp h
  have hnil : src.dropLast ≠ [] := fun hnil => hlength (.inl (by rw [hnil]; rfl))
  have hdecode := ((cobsDecodeLoop_iff (Nat.zero_le _)).mp hbody).1
  rw [decodeOne, if_neg hbad]
  dsimp only
  rw [if_neg hnil, if_neg hmem, Bridge.Link.cobsDecode, hdecode]
  exact parseBody_of_mcLinkParseBody hparse

theorem exists_mcLinkDecodeFrame {src : List UInt8} {frame : Frame}
    (h : decodeOne src = .ok frame) :
    ∃ mcFrame, mcLinkDecodeFrame src = some mcFrame ∧ frame = .ofMcLinkFrame mcFrame := by
  unfold decodeOne at h
  split_ifs at h with hbad
  dsimp only at h
  split_ifs at h with hnil hmem
  split at h
  case h_1 => contradiction
  case h_2 body hbody =>
    obtain ⟨hfits, mcFrame, hparse, hframe⟩ := exists_mcLinkParseBody h
    refine ⟨mcFrame, ?_, hframe⟩
    have hdecode : Link.cobsDecode src.dropLast mcLinkMaxBodyLen = some body :=
      (cobsDecodeLoop_iff (Nat.zero_le _)).mpr ⟨hbody, hfits⟩
    have hlength : ¬(src.dropLast.length = 0 ∨
        src.dropLast.length > mcLinkMaxEncodedWithoutDelimiter) := by
      rw [not_or] at hbad ⊢
      refine ⟨fun hzero => hnil (List.length_eq_zero_iff.mp hzero), ?_⟩
      have hle : src.length ≤ 512 := Nat.le_of_not_lt hbad.1
      rw [List.length_dropLast]
      show ¬511 < src.length - 1
      omega
    rw [mcLinkDecodeFrame, decodeFrameWithScratch, if_neg hbad]
    dsimp only
    rw [if_neg hlength, if_neg hmem, hdecode]
    exact hparse

/-- Both decoders accept the same strings, read the same frame, and stay in bounds. -/
theorem mcLinkDecodeFrame_decodeOne (src : List UInt8) :
    ((mcLinkDecodeFrame src).isSome = true ↔ ∃ frame, decodeOne src = .ok frame) ∧
    (∀ mcFrame frame, mcLinkDecodeFrame src = some mcFrame → decodeOne src = .ok frame →
      frame.frameType.toU8 = mcFrame.type ∧ frame.flags = mcFrame.flags ∧
        frame.seq = mcFrame.seq ∧ frame.ack = mcFrame.ack ∧
        frame.payload.length = mcFrame.payload.length ∧ frame.payload = mcFrame.payload) ∧
    decodeFrameChecked src mcLinkMaxBodyLen = .ok (mcLinkDecodeFrame src) ∧
    decodeOneChecked src = .ok (decodeOne src) := by
  refine ⟨⟨?_, ?_⟩, ?_, decodeFrameChecked_eq src _, decodeOneChecked_eq src⟩
  · intro h
    obtain ⟨mcFrame, hframe⟩ := Option.isSome_iff_exists.mp h
    exact ⟨_, decodeOne_of_mcLinkDecodeFrame hframe⟩
  · rintro ⟨frame, hframe⟩
    obtain ⟨mcFrame, hmc, _⟩ := exists_mcLinkDecodeFrame hframe
    rw [hmc]
    rfl
  · intro mcFrame frame hmc hframe
    have hsame : frame = .ofMcLinkFrame mcFrame :=
      Except.ok.inj (hframe.symm.trans (decodeOne_of_mcLinkDecodeFrame hmc))
    rw [hsame]
    exact ⟨FrameType.toU8_fromU8 _, rfl, rfl, rfl, rfl, rfl⟩

/-! Streams. -/

def DecodeEvent.frame? : DecodeEvent → Option Frame
  | .frame frame => some frame
  | .error _ => none

/-- The frames among the events of feeding some pieces one after the other. -/
def decoderFrames (decoder : Decoder) : List (List UInt8) → List Frame
  | [] => []
  | data :: pieces =>
    let fed := decoder.feed data
    fed.2.filterMap DecodeEvent.frame? ++ decoderFrames fed.1 pieces

/-- What the decoder holds is computed from the bytes of the unfinished segment. -/
inductive DecoderHolds (decoder : Decoder) (pending : List UInt8) : Prop
  | buffered (hdiscarding : decoder.discarding = false) (hbuf : decoder.buffer = pending)
      (hlen : pending.length < maxEncodedLen)
  | skipping (hdiscarding : decoder.discarding = true) (hbuf : decoder.buffer = [])
      (hlen : maxEncodedLen ≤ pending.length)

theorem frame?_decodeOne (segment : List UInt8) :
    DecodeEvent.frame? (match decodeOne segment with
      | .ok frame => .frame frame
      | .error error => .error error) =
      (mcLinkDecodeFrame segment).map Frame.ofMcLinkFrame := by
  cases hone : decodeOne segment with
  | ok frame =>
    obtain ⟨mcFrame, hmc, hframe⟩ := exists_mcLinkDecodeFrame hone
    rw [hmc, hframe]
    rfl
  | error error =>
    cases hmc : mcLinkDecodeFrame segment with
    | none => rfl
    | some mcFrame =>
      have := decodeOne_of_mcLinkDecodeFrame hmc
      rw [hone] at this
      contradiction

theorem feedByte_delimiter {decoder : Decoder} {pending : List UInt8}
    (hholds : DecoderHolds decoder pending) :
    (decoder.feedByte mcLinkDelimiter).2.bind DecodeEvent.frame? =
        (linkSegment (pending ++ [mcLinkDelimiter])).map Frame.ofMcLinkFrame ∧
      DecoderHolds (decoder.feedByte mcLinkDelimiter).1 [] := by
  rw [Decoder.feedByte]
  cases hholds with
  | skipping hdiscarding hbuf hlen =>
    rw [if_pos hdiscarding, if_pos rfl, linkSegment_of_lt hlen]
    exact ⟨rfl, .buffered rfl hbuf (by decide)⟩
  | buffered hdiscarding hbuf hlen =>
    have hnot : ¬decoder.discarding = true := by
      rw [hdiscarding]
      exact Bool.false_ne_true
    have hsegment : linkSegment (pending ++ [mcLinkDelimiter]) =
        mcLinkDecodeFrame (pending ++ [mcLinkDelimiter]) := by
      apply linkSegment_of_le
      rw [List.length_append, List.length_singleton]
      exact hlen
    rw [if_neg hnot, if_pos rfl, hbuf, hsegment]
    by_cases hnil : pending = []
    · rw [if_pos hnil, hnil]
      exact ⟨rfl, .buffered hdiscarding (hbuf.trans hnil) (by decide)⟩
    · rw [if_neg hnil, ← frame?_decodeOne]
      exact ⟨rfl, .buffered hdiscarding rfl (by decide)⟩

theorem feedByte_other {decoder : Decoder} {pending : List UInt8} {byte : UInt8}
    (hholds : DecoderHolds decoder pending) (hbyte : byte ≠ mcLinkDelimiter) :
    (decoder.feedByte byte).2 = none ∧
      DecoderHolds (decoder.feedByte byte).1 (pending ++ [byte]) := by
  have hlength : (pending ++ [byte]).length = pending.length + 1 := by
    rw [List.length_append, List.length_singleton]
  rw [Decoder.feedByte]
  cases hholds with
  | skipping hdiscarding hbuf hlen =>
    rw [if_pos hdiscarding, if_neg hbyte]
    exact ⟨rfl, .skipping hdiscarding hbuf (by rw [hlength]; exact hlen.trans (Nat.le_succ _))⟩
  | buffered hdiscarding hbuf hlen =>
    have hnot : ¬decoder.discarding = true := by
      rw [hdiscarding]
      exact Bool.false_ne_true
    rw [if_neg hnot, if_neg hbyte, hbuf]
    dsimp only
    by_cases hfull : (pending ++ [byte]).length ≥ maxEncodedLen
    · rw [if_pos hfull]
      exact ⟨rfl, .skipping rfl rfl hfull⟩
    · rw [if_neg hfull]
      exact ⟨rfl, .buffered hdiscarding rfl (Nat.lt_of_not_le hfull)⟩

theorem feed_spec (data : List UInt8) {decoder : Decoder} {pending : List UInt8}
    (hholds : DecoderHolds decoder pending) (hdelim : mcLinkDelimiter ∉ pending) :
    (decoder.feed data).2.filterMap DecodeEvent.frame? =
        (linkFrames (pending ++ data)).map Frame.ofMcLinkFrame ∧
      DecoderHolds (decoder.feed data).1 (linkTail (pending ++ data)) := by
  induction data generalizing decoder pending with
  | nil =>
    rw [Decoder.feed, List.append_nil, linkFrames_of_notMem hdelim, linkTail_of_notMem hdelim]
    exact ⟨rfl, hholds⟩
  | cons byte data ih =>
    have hsplit : pending ++ byte :: data = (pending ++ [byte]) ++ data := by simp
    rw [Decoder.feed, hsplit]
    dsimp only
    rw [List.filterMap_append]
    by_cases hbyte : byte = mcLinkDelimiter
    · have hstep := feedByte_delimiter hholds
      have hframe := isFrame_snoc hdelim
      rw [hbyte]
      obtain ⟨hevents, hnext⟩ := ih hstep.2 List.not_mem_nil
      rw [linkFrames_frame hframe, linkTail_frame hframe, List.map_append, hevents]
      refine ⟨?_, hnext⟩
      congr 1
      rw [← Option.toList_map, ← hstep.1]
      cases (decoder.feedByte mcLinkDelimiter).2 with
      | none => rfl
      | some event =>
        show List.filterMap DecodeEvent.frame? [event] = (DecodeEvent.frame? event).toList
        cases hevent : DecodeEvent.frame? event with
        | none => simp [hevent]
        | some frame => simp [hevent]
    · have hstep := feedByte_other hholds hbyte
      have hclean : mcLinkDelimiter ∉ pending ++ [byte] := by
        intro hmem
        rcases List.mem_append.mp hmem with hmem | hmem
        · exact hdelim hmem
        · exact hbyte (List.mem_singleton.mp hmem).symm
      obtain ⟨hevents, hnext⟩ := ih hstep.2 hclean
      rw [hstep.1]
      exact ⟨hevents, hnext⟩

theorem decoderFrames_spec (pieces : List (List UInt8)) {decoder : Decoder} {pending : List UInt8}
    (hholds : DecoderHolds decoder pending) (hdelim : mcLinkDelimiter ∉ pending) :
    decoderFrames decoder pieces =
      (linkFrames (pending ++ pieces.flatten)).map Frame.ofMcLinkFrame := by
  induction pieces generalizing decoder pending with
  | nil =>
    rw [decoderFrames, List.flatten_nil, List.append_nil, linkFrames_of_notMem hdelim]
    rfl
  | cons data pieces ih =>
    obtain ⟨hevents, hnext⟩ := feed_spec data hholds hdelim
    rw [decoderFrames, hevents, ih hnext (notMem_linkTail _), List.flatten_cons, ← List.append_assoc,
      ← List.map_append, ← linkFrames_append]

/-- Both find the same frames in a stream, whatever the firmware's reads of at most 512 bytes
and the bridge's are. -/
theorem parserReads_decoderFrames (stream : List UInt8) (reads pieces : List (List UInt8))
    (hreads : ∀ src ∈ reads, src.length ≤ 512) (hstream : reads.flatten = stream)
    (hpieces : pieces.flatten = stream) :
    (parserReads mcLinkParserInit reads).1 = linkFrames stream ∧
      decoderFrames Decoder.new pieces = (linkFrames stream).map Frame.ofMcLinkFrame := by
  have hparserInit : mcLinkParserInit.Holds [] := .buffered rfl rfl (by decide)
  have hdecoderNew : DecoderHolds Decoder.new [] := .buffered rfl rfl (by decide)
  have hparser := parserReads_spec hreads hparserInit List.not_mem_nil
  have hdecoder := decoderFrames_spec pieces hdecoderNew List.not_mem_nil
  rw [List.nil_append] at hparser hdecoder
  rw [hstream] at hparser
  rw [hpieces] at hdecoder
  exact ⟨hparser, hdecoder⟩

/-- A damaged segment and a PING, of which both sides read parts. -/
def damagedStream : List UInt8 := [0, 7, 7, 0] ++ mcLinkFrameBytes 0x0b 5 0 [1, 2]

theorem parserReads_decoderFrames_damaged :
    (parserReads mcLinkParserInit [damagedStream.take 3, damagedStream.drop 3]).1 =
      [{ type := 0x0b, flags := 0, seq := 5, ack := 0, payload := [1, 2] }] ∧
    decoderFrames Decoder.new [damagedStream.take 9, damagedStream.drop 9] =
      [{ frameType := .ping, flags := 0, seq := 5, ack := 0, payload := [1, 2] }] := by
  have hframes : linkFrames damagedStream =
      [{ type := 0x0b, flags := 0, seq := 5, ack := 0, payload := [1, 2] }] := by
    decide +kernel
  obtain ⟨hparser, hdecoder⟩ := parserReads_decoderFrames damagedStream
    [damagedStream.take 3, damagedStream.drop 3] [damagedStream.take 9, damagedStream.drop 9]
    (by decide +kernel) (by decide +kernel) (by decide +kernel)
  rw [hframes] at hparser hdecoder
  exact ⟨hparser, hdecoder⟩

end StarrySky.System
