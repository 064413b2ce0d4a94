import StarrySky.Bridge.LinkLemmas
import StarrySky.Firmware.M2cPayload

/-! A data frame that the bridge could not finish writing, and the RESET it sends then
(`send_link_reset` in `bridge/src/serial_io.rs`), as the firmware's parser reads them. -/

namespace StarrySky.System
open StarrySky.Base StarrySky.Link StarrySky.Firmware
open StarrySky.Bridge.Link (FrameType encode encode_eq_some)

theorem prefix_cobsDecodeLoop {dstCap : ℕ} {dst src body : List UInt8}
    (h : cobsDecodeLoop dstCap dst src = some body) : dst <+: body := by
  induction dst, src using cobsDecodeLoop.induct dstCap with
  | case1 dst =>
    rw [cobsDecodeLoop] at h
    rw [Option.some.inj h]
  | case2 dst src =>
    rw [cobsDecodeLoop, if_pos rfl] at h
    contradiction
  | case3 dst code src hzero copyLen hcopy =>
    rw [cobsDecodeLoop, if_neg hzero, if_pos hcopy] at h
    contradiction
  | case4 dst code src hzero copyLen hcopy hcap =>
    rw [cobsDecodeLoop, if_neg hzero, if_neg hcopy, if_pos hcap] at h
    contradiction
  | case5 dst code src hzero copyLen hcopy hcap written rest hgap hfull =>
    rw [cobsDecodeLoop, if_neg hzero, if_neg hcopy, if_neg hcap, if_pos hgap, if_pos hfull] at h
    contradiction
  | case6 dst code src hzero copyLen hcopy hcap written rest hgap hfull ih =>
    rw [cobsDecodeLoop, if_neg hzero, if_neg hcopy, if_neg hcap, if_pos hgap, if_neg hfull] at h
    exact ((List.prefix_append _ _).trans (List.prefix_append _ _)).trans (ih h)
  | case7 dst code src hzero copyLen hcopy hcap written rest hgap ih =>
    rw [cobsDecodeLoop, if_neg hzero, if_neg hcopy, if_neg hcap, if_neg hgap] at h
    exact (List.prefix_append _ _).trans (ih h)

theorem prefix_cobsDecode_two {dstCap : ℕ} {a b : UInt8} {rest body : List UInt8}
    (h : cobsDecode (3 :: a :: b :: rest) dstCap = some body) : [a, b] <+: body := by
  have hthree : (3 : UInt8).toNat - 1 = 2 := rfl
  rw [cobsDecode, cobsDecodeLoop, if_neg (by decide)] at h
  simp only [hthree, List.nil_append, List.take_succ_cons, List.take_zero, List.drop_succ_cons,
    List.drop_zero] at h
  split_ifs at h with hcopy hcap hgap hfull
  · exact (List.prefix_append _ _).trans (prefix_cobsDecodeLoop h)
  · exact prefix_cobsDecodeLoop h

theorem version_type_of_mcLinkParseBody {body : List UInt8} {a b : UInt8} {frame : McLinkFrame}
    (hhead : [a, b] <+: body) (h : mcLinkParseBody body = some frame) :
    a = mcLinkVersion ∧ b = frame.type := by
  obtain ⟨rest, rfl⟩ := hhead
  unfold mcLinkParseBody at h
  split at h
  case h_2 => contradiction
  case h_1 version type flags seq0 seq1 ack0 ack1 len0 len1 tail hbody =>
    simp only [List.cons_append, List.nil_append, List.cons.injEq] at hbody
    dsimp only at h
    split_ifs at h with hshort hversion hmax hexact
    split at h
    case h_2 => contradiction
    case h_1 =>
      split_ifs at h with hcheck
      cases h
      exact ⟨hbody.1.trans (not_not.mp hversion), hbody.2.1⟩

theorem encode_two {a b : UInt8} (ha : a ≠ 0) (hb : b ≠ 0) (rest : List UInt8) :
    Cobs.encode (a :: b :: 0 :: rest) = 3 :: a :: b :: Cobs.encode rest := by
  rw [Cobs.encode, Cobs.encodeFrom, if_neg ha, if_neg (by simp), Cobs.encodeFrom, if_neg hb,
    if_neg (by simp), Cobs.encodeFrom, if_pos rfl]
  rfl

theorem mcLinkFrameBytes_cons {type : UInt8} (htype : type ≠ 0) (seq ack : UInt16)
    (payload : List UInt8) :
    ∃ tail, mcLinkFrameBytes type seq ack payload = 3 :: mcLinkVersion :: type :: tail := by
  -- The version and the type open every frame, as the flags behind them are zero.
  have hbody : ∃ rest, mcLinkBody type seq ack payload = mcLinkVersion :: type :: 0 :: rest :=
    ⟨_, rfl⟩
  obtain ⟨rest, hrest⟩ := hbody
  rw [mcLinkFrameBytes, hrest, encode_two (by decide) htype]
  exact ⟨_, rfl⟩

theorem linkFrames_partial {part : List UInt8} (hpart : mcLinkDelimiter ∉ part) (type : UInt8)
    (seq ack : UInt16) (payload : List UInt8) :
    linkFrames (part ++ mcLinkFrameBytes type seq ack payload) =
      (linkSegment (part ++ mcLinkFrameBytes type seq ack payload)).toList := by
  -- One segment is all that the parser sees, so it has one chance to find a frame.
  have hsegment : IsFrame mcLinkDelimiter (part ++ mcLinkFrameBytes type seq ack payload) := by
    obtain ⟨body, hbody, hclean⟩ := isFrame_mcLinkFrameBytes type seq ack payload
    refine ⟨part ++ body, by rw [hbody, List.append_assoc], ?_⟩
    rw [List.mem_append, not_or]
    exact ⟨hpart, hclean⟩
  have hone := linkFrames_frame hsegment []
  rwa [List.append_nil, linkFrames_of_notMem List.not_mem_nil, List.append_nil] at hone

theorem exists_body_of_linkSegment {code a b : UInt8} {rest : List UInt8} {frame : McLinkFrame}
    (h : linkSegment (code :: a :: b :: rest) = some frame) (hrest : rest ≠ []) :
    ∃ body, cobsDecode (code :: a :: b :: rest.dropLast) mcLinkMaxBodyLen = some body ∧
      mcLinkParseBody body = some frame := by
  rw [linkSegment] at h
  split_ifs at h with hlen
  rw [mcLinkDecodeFrame, decodeFrameWithScratch] at h
  split_ifs at h with hlast
  dsimp only at h
  split_ifs at h with hempty hzero
  obtain ⟨body, hbody, hparse⟩ := Option.bind_eq_some_iff.mp h
  rw [List.dropLast_cons_of_ne_nil (by simp), List.dropLast_cons_of_ne_nil (by simp),
    List.dropLast_cons_of_ne_nil hrest] at hbody
  exact ⟨body, hbody, hparse⟩

theorem type_of_cut_linkSegment {payload part : List UInt8} {seq ack resetSeq : UInt16}
    (hpart : part <+: mcLinkFrameBytes mcLinkDataC2m seq ack payload) (hne : part ≠ [])
    {frame : McLinkFrame}
    (h : linkSegment (part ++ mcLinkFrameBytes FrameType.reset.toU8 resetSeq 0 []) = some frame) :
    frame.type = mcLinkDataC2m := by
  -- Behind a part of a data frame there is no RESET: the version is wrong, or the type is the data
  -- frame's, or by chance the first byte of the RESET, which is the same number.
  obtain ⟨tail, htail⟩ := @mcLinkFrameBytes_cons mcLinkDataC2m (by decide) seq ack payload
  obtain ⟨reset, hreset⟩ := @mcLinkFrameBytes_cons FrameType.reset.toU8 (by decide) resetSeq 0 []
  have htwo : ∀ {a b : UInt8} {rest : List UInt8}, rest ≠ [] →
      linkSegment (3 :: a :: b :: rest) = some frame → a = mcLinkVersion ∧ b = frame.type := by
    intro a b rest hrest hsegment
    obtain ⟨body, hbody, hparse⟩ := exists_body_of_linkSegment hsegment hrest
    exact version_type_of_mcLinkParseBody (prefix_cobsDecode_two hbody) hparse
  rw [htail] at hpart
  rw [hreset] at h
  -- how much of the block code, the version and the type was written
  rcases part with _ | ⟨x, _ | ⟨y, _ | ⟨z, part⟩⟩⟩
  · exact absurd rfl hne
  · rw [List.cons_prefix_cons] at hpart
    rw [hpart.1] at h
    exact absurd (htwo (by simp) h).1 (by decide)
  · rw [List.cons_prefix_cons, List.cons_prefix_cons] at hpart
    rw [hpart.1] at h
    exact (htwo (by simp) h).2.symm
  · rw [List.cons_prefix_cons, List.cons_prefix_cons, List.cons_prefix_cons] at hpart
    rw [hpart.1, hpart.2.2.1] at h
    exact (htwo (by simp) h).2.symm

theorem notMem_of_part {frame part rest : List UInt8} (hframe : IsFrame mcLinkDelimiter frame)
    (hpart : part ++ rest = frame) (hproper : rest ≠ []) : mcLinkDelimiter ∉ part := by
  obtain ⟨body, rfl, hbody⟩ := hframe
  have hhead : part <+: body ++ [mcLinkDelimiter] := ⟨rest, hpart⟩
  rw [List.prefix_concat_iff] at hhead
  obtain hwhole | hbefore := hhead
  · rw [← hwhole, List.append_right_eq_self] at hpart
    exact absurd hpart hproper
  · exact fun hmem => hbody (hbefore.subset hmem)

theorem parserReads_afterPart {payload part rest : List UInt8} {seq ack resetSeq : UInt16}
    (hpart : part ++ rest = mcLinkFrameBytes mcLinkDataC2m seq ack payload) (hproper : rest ≠ [])
    {reads : List (List UInt8)} (hreads : ∀ src ∈ reads, src.length ≤ mcLinkMaxFrameLen)
    (hstream : reads.flatten = part ++ mcLinkFrameBytes FrameType.reset.toU8 resetSeq 0 []) :
    (parserReads mcLinkParserInit reads).1 =
      (linkSegment (part ++ mcLinkFrameBytes FrameType.reset.toU8 resetSeq 0 [])).toList := by
  have hholds : mcLinkParserInit.Holds [] := .buffered rfl rfl (by decide)
  have hclean := notMem_of_part (isFrame_mcLinkFrameBytes _ _ _ _) hpart hproper
  rw [parserReads_spec hreads hholds List.not_mem_nil, List.nil_append, hstream,
    linkFrames_partial hclean]

theorem noReset_afterPart {payload part rest : List UInt8} {seq ack resetSeq : UInt16}
    (hpart : part ++ rest = mcLinkFrameBytes mcLinkDataC2m seq ack payload) (hproper : rest ≠ [])
    {reads : List (List UInt8)} (hreads : ∀ src ∈ reads, src.length ≤ mcLinkMaxFrameLen)
    (hstream : reads.flatten = part ++ mcLinkFrameBytes FrameType.reset.toU8 resetSeq 0 [])
    (hne : part ≠ []) {found : McLinkFrame}
    (hmem : found ∈ (parserReads mcLinkParserInit reads).1) :
    found.type ≠ FrameType.reset.toU8 := by
  rw [parserReads_afterPart hpart hproper hreads hstream, Option.mem_toList] at hmem
  rw [type_of_cut_linkSegment ⟨rest, hpart⟩ hne hmem]
  decide

def resetFrame (resetSeq : UInt16) : McLinkFrame :=
  { type := FrameType.reset.toU8, flags := 0, seq := resetSeq, ack := 0, payload := [] }

/-- Behind a part of a data frame a RESET is found exactly when that part is empty. -/
theorem reset_afterPart_iff {payload frame reset part rest : List UInt8}
    {seq ack resetSeq : UInt16} (hframe : encode .dataC2m seq ack payload = some frame)
    (hreset : encode .reset resetSeq 0 [] = some reset) (hpart : part ++ rest = frame)
    (hproper : rest ≠ []) {reads : List (List UInt8)}
    (hreads : ∀ src ∈ reads, src.length ≤ mcLinkMaxFrameLen)
    (hstream : reads.flatten = part ++ reset) :
    (resetFrame resetSeq ∈ (parserReads mcLinkParserInit reads).1 ↔ part = []) ∧
    (part ≠ [] → ∀ found ∈ (parserReads mcLinkParserInit reads).1,
      found.type ≠ FrameType.reset.toU8) := by
  obtain ⟨_, rfl⟩ := encode_eq_some hframe
  obtain ⟨_, rfl⟩ := encode_eq_some hreset
  refine ⟨⟨fun hmem => ?_, fun hnil => ?_⟩, fun hne found hmem => ?_⟩
  · by_contra hne
    exact noReset_afterPart hpart hproper hreads hstream hne hmem rfl
  · have hempty : ([] : List UInt8).length ≤ mcLinkMaxPayload := Nat.zero_le _
    rw [parserReads_afterPart hpart hproper hreads hstream, hnil, List.nil_append,
      linkSegment_of_le (length_mcLinkFrameBytes_le hempty _ _ _),
      mcLinkDecodeFrame_mcLinkFrameBytes hempty]
    exact List.mem_singleton_self _
  · exact noReset_afterPart hpart hproper hreads hstream hne hmem

/-- Nothing was written of a frame with one byte, and the RESET comes in two reads; or its first
five bytes were, and they come with the RESET. -/
theorem reset_afterPart_iff_parts :
    resetFrame 1 ∈ (parserReads mcLinkParserInit
        [(mcLinkFrameBytes FrameType.reset.toU8 1 0 []).take 4,
          (mcLinkFrameBytes FrameType.reset.toU8 1 0 []).drop 4]).1 ∧
      ∀ found ∈ (parserReads mcLinkParserInit
        [(mcLinkFrameBytes mcLinkDataC2m 0 0 [0x61]).take 5 ++
          mcLinkFrameBytes FrameType.reset.toU8 1 0 []]).1,
        found.type ≠ FrameType.reset.toU8 := by
  have hdata := @Bridge.Link.encode_eq .dataC2m rfl [0x61] (by decide) 0 0
  have hreset := @Bridge.Link.encode_eq .reset rfl [] (by decide) 1 0
  constructor
  · refine (reset_afterPart_iff hdata hreset (List.nil_append _)
      (isFrame_mcLinkFrameBytes _ _ _ _).ne_nil ?_ ?_).1.mpr rfl
    · decide +kernel
    · rw [List.flatten_cons, List.flatten_singleton, List.take_append_drop, List.nil_append]
  · have hpart := List.take_append_drop 5 (mcLinkFrameBytes mcLinkDataC2m 0 0 [0x61])
    have hproper : (mcLinkFrameBytes mcLinkDataC2m 0 0 [0x61]).drop 5 ≠ [] := by decide +kernel
    refine (reset_afterPart_iff hdata hreset hpart hproper ?_ List.flatten_singleton).2 ?_
    · decide +kernel
    · decide +kernel

/-- The first byte of a data frame swallows the RESET. -/
theorem reset_afterPart_lost :
    ¬∀ (payload frame reset part rest : List UInt8) (seq ack resetSeq : UInt16),
      encode .dataC2m seq ack payload = some frame → encode .reset resetSeq 0 [] = some reset →
        part ++ rest = frame → rest ≠ [] →
          resetFrame resetSeq ∈ (parserReads mcLinkParserInit [part ++ reset]).1 := by
  intro hall
  have hdata := @Bridge.Link.encode_eq .dataC2m rfl [0x61] (by decide) 0 0
  have hreset := @Bridge.Link.encode_eq .reset rfl [] (by decide) 1 0
  have hpart := List.take_append_drop 1 (mcLinkFrameBytes mcLinkDataC2m 0 0 [0x61])
  have hproper : (mcLinkFrameBytes mcLinkDataC2m 0 0 [0x61]).drop 1 ≠ [] := by decide +kernel
  have hmem := hall _ _ _ _ _ _ _ _ hdata hreset hpart hproper
  refine noReset_afterPart hpart hproper ?_ (List.flatten_singleton) (by decide +kernel) hmem rfl
  decide +kernel

end StarrySky.System
