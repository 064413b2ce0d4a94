import StarrySky.Link.FrameLemmas
import StarrySky.Link.Parser

/-! The stream parser on frames that arrive undamaged. -/

namespace StarrySky.Link
open StarrySky.Base

/-- Nothing is buffered and nothing is being skipped. -/
def McLinkParser.Idle (parser : McLinkParser) : Prop :=
  parser.buf = [] ∧ parser.discarding = false

theorem idle_mcLinkParserInit : mcLinkParserInit.Idle := ⟨rfl, rfl⟩

theorem parserTryOne_of_notMem {parser : McLinkParser} (hbuf : mcLinkDelimiter ∉ parser.buf)
    (hlen : parser.buf.length < mcLinkMaxFrameLen) : parserTryOne parser = (none, parser) := by
  rw [parserTryOne, firstFrameLen_eq_none hbuf]
  exact if_neg (Nat.ne_of_lt hlen)

theorem parserTryBuffered_of_notMem {parser : McLinkParser}
    (hbuf : mcLinkDelimiter ∉ parser.buf) (hlen : parser.buf.length < mcLinkMaxFrameLen) :
    parserTryBuffered parser = (none, parser) := by
  rw [parserTryBuffered, parserTryOne_of_notMem hbuf hlen]
  exact if_pos rfl

theorem parserFeedBytes_append {parser : McLinkParser} (hdiscarding : parser.discarding = false)
    {xs : List UInt8} (hxs : mcLinkDelimiter ∉ xs)
    (hlen : parser.buf.length + xs.length < mcLinkMaxFrameLen) (src : List UInt8) :
    parserFeedBytes parser (xs ++ src) =
      parserFeedBytes { parser with buf := parser.buf ++ xs } src := by
  induction xs generalizing parser with
  | nil => simp
  | cons x xs ih =>
    simp only [List.mem_cons, not_or, List.length_cons] at hxs hlen
    have hfull : ¬ (parser.buf ++ [x]).length = mcLinkMaxFrameLen := by
      rw [List.length_append, List.length_singleton]
      omega
    have hnext := @ih { parser with buf := parser.buf ++ [x] } hdiscarding hxs.2 (by
      rw [List.length_append, List.length_singleton]
      omega)
    rw [List.cons_append, parserFeedBytes, if_neg (by simp [hdiscarding])]
    dsimp only
    rw [if_neg (Ne.symm hxs.1), if_neg hfull, hnext, List.append_assoc, List.singleton_append]

theorem parserTryOne_decode {parser : McLinkParser} {segment : List UInt8}
    (hframe : IsFrame mcLinkDelimiter segment) {frame : McLinkFrame}
    (hdecode : mcLinkDecodeFrame segment = some frame) (rest : List UInt8)
    (hbuf : parser.buf = segment ++ rest) :
    parserTryOne parser = (some frame, { parser with buf := rest }) := by
  have hscratch : decodeFrameWithScratch segment mcLinkMaxBodyLen = some frame := hdecode
  rw [parserTryOne, hbuf, firstFrameLen_frame hframe]
  simp only [List.take_left, hscratch, parserDrop, hbuf, List.drop_left]

theorem mcLinkParserFeed_decode {parser : McLinkParser} (hidle : parser.Idle)
    {segment : List UInt8} (hframe : IsFrame mcLinkDelimiter segment)
    (hlen : segment.length ≤ mcLinkMaxFrameLen) {frame : McLinkFrame}
    (hdecode : mcLinkDecodeFrame segment = some frame) {rest : List UInt8}
    (hrest : rest.length < mcLinkMaxFrameLen) :
    mcLinkParserFeed parser (segment ++ rest) = (some frame, { parser with buf := rest }) := by
  obtain ⟨hbuf, hdiscarding⟩ := hidle
  have hnotMem : mcLinkDelimiter ∉ parser.buf := by simp [hbuf]
  have hshort : parser.buf.length < mcLinkMaxFrameLen := by simp [hbuf]
  obtain ⟨body, hbody, hzero⟩ := hframe
  have hbodyLen : body.length + 1 ≤ mcLinkMaxFrameLen := by
    rwa [hbody, List.length_append, List.length_singleton] at hlen
  have htry := @parserTryOne_decode { parser with buf := body ++ [mcLinkDelimiter] } segment
    ⟨body, hbody, hzero⟩ frame hdecode [] (by simp [hbody])
  rw [mcLinkParserFeed, if_neg (by simp [hdiscarding]),
    parserTryBuffered_of_notMem hnotMem hshort]
  dsimp only
  rw [hbody, List.append_assoc, parserFeedBytes_append hdiscarding hzero (by
    rw [hbuf, List.length_nil]
    omega), List.singleton_append, parserFeedBytes, if_neg (by simp [hdiscarding])]
  simp only [hbuf, List.nil_append, if_true, htry]
  rw [parserKeepRest]
  dsimp only
  rw [List.length_nil, Nat.sub_zero, if_neg (by omega), if_neg (by omega), List.nil_append]

theorem mcLinkParserFeed_buffered {parser : McLinkParser} (hdiscarding : parser.discarding = false)
    {segment : List UInt8} (hframe : IsFrame mcLinkDelimiter segment) {frame : McLinkFrame}
    (hdecode : mcLinkDecodeFrame segment = some frame) {rest : List UInt8}
    (hbuf : parser.buf = segment ++ rest) (src : List UInt8) :
    mcLinkParserFeed parser src = (some frame, { parser with buf := rest }) := by
  rw [mcLinkParserFeed, if_neg (by simp [hdiscarding]), parserTryBuffered,
    parserTryOne_decode hframe hdecode rest hbuf]

theorem mcLinkParserFeed_skipping {parser : McLinkParser} (hdiscarding : parser.discarding = true)
    (hbuf : parser.buf = []) {segment : List UInt8} (hframe : IsFrame mcLinkDelimiter segment)
    (src : List UInt8) :
    mcLinkParserFeed parser (segment ++ src) =
      mcLinkParserFeed { parser with discarding := false } src := by
  obtain ⟨body, rfl, hbody⟩ := hframe
  have hskip : parserFeedBytes parser (body ++ [mcLinkDelimiter] ++ src) =
      parserFeedBytes { parser with discarding := false } src := by
    clear hbuf
    induction body generalizing parser with
    | nil =>
      rw [List.nil_append, List.singleton_append, parserFeedBytes, if_pos hdiscarding]
      simp
    | cons byte body ih =>
      simp only [List.mem_cons, not_or] at hbody
      rw [List.cons_append, List.cons_append, parserFeedBytes, if_pos hdiscarding]
      exact ih (decide_eq_true (Ne.symm hbody.1)) hbody.2
  have hempty : ({ parser with buf := [] } : McLinkParser) = parser := by rw [← hbuf]
  rw [mcLinkParserFeed, if_pos hdiscarding, hempty, hskip, mcLinkParserFeed,
    if_neg Bool.false_ne_true, parserTryBuffered_of_notMem]
  · simp [hbuf]
  · simp [hbuf]

theorem mcLinkParserFeed_idle {parser : McLinkParser} (hidle : parser.Idle) :
    mcLinkParserFeed parser [] = (none, parser) := by
  obtain ⟨hbuf, hdiscarding⟩ := hidle
  have hnotMem : mcLinkDelimiter ∉ parser.buf := by simp [hbuf]
  have hshort : parser.buf.length < mcLinkMaxFrameLen := by simp [hbuf]
  rw [mcLinkParserFeed, if_neg (by simp [hdiscarding]),
    parserTryBuffered_of_notMem hnotMem hshort]
  dsimp only
  rw [parserFeedBytes, parserTryOne_of_notMem hnotMem hshort]

/-- The buffer stays within its capacity, and is not left full without a frame. -/
def BufBound (found : Option McLinkFrame) (parser : McLinkParser) : Prop :=
  parser.buf.length ≤ mcLinkMaxFrameLen ∧ (found = none → parser.buf.length < mcLinkMaxFrameLen)

theorem bufBound_parserTryOne {parser : McLinkParser}
    (h : parser.buf.length ≤ mcLinkMaxFrameLen) :
    BufBound (parserTryOne parser).1 (parserTryOne parser).2 := by
  refine ⟨(length_buf_parserTryOne_le parser).trans h, ?_⟩
  cases hfirst : firstFrameLen mcLinkDelimiter parser.buf with
  | none =>
    rw [parserTryOne, hfirst]
    dsimp only
    split_ifs with hfull
    · exact fun _ => by simp [parserDiscard]
    · exact fun _ => Nat.lt_of_le_of_ne h hfull
  | some frameLen =>
    have hpos : 0 < frameLen ∧ 0 < parser.buf.length := by
      refine ⟨?_, List.length_pos_of_ne_nil fun hnil => ?_⟩
      · obtain ⟨index, _, rfl⟩ := Option.map_eq_some_iff.mp hfirst
        exact Nat.succ_pos _
      · simp [hnil, firstFrameLen] at hfirst
    rw [parserTryOne, hfirst]
    dsimp only
    split
    case h_1 => simp
    case h_2 =>
      split_ifs <;> · simp only [parserDrop, List.length_drop]; omega

theorem bufBound_parserTryBuffered {parser : McLinkParser}
    (h : parser.buf.length ≤ mcLinkMaxFrameLen) :
    BufBound (parserTryBuffered parser).1 (parserTryBuffered parser).2 := by
  induction parser using parserTryBuffered.induct with
  | case1 parser frame parser' htry =>
    have hbound := bufBound_parserTryOne h
    rw [parserTryBuffered, htry]
    rwa [htry] at hbound
  | case2 parser parser' htry hlen =>
    have hbound := bufBound_parserTryOne h
    rw [parserTryBuffered, htry]
    simp only [htry, if_pos hlen] at hbound ⊢
    exact hbound
  | case3 parser parser' htry hlen ih =>
    have hbound := bufBound_parserTryOne h
    rw [parserTryBuffered, htry]
    simp only [htry, if_neg hlen] at hbound ⊢
    exact ih hbound.1

theorem length_buf_parserKeepRest {parser : McLinkParser}
    (h : parser.buf.length ≤ mcLinkMaxFrameLen) (rest : List UInt8) :
    (parserKeepRest parser rest).buf.length ≤ mcLinkMaxFrameLen := by
  unfold parserKeepRest
  dsimp only
  split_ifs
  · simp [parserDiscard]
  · simp [parserDiscard]
  · rw [List.length_append]
    omega

theorem bufBound_parserFeedBytes {parser : McLinkParser}
    (h : parser.buf.length < mcLinkMaxFrameLen) (src : List UInt8) :
    BufBound (parserFeedBytes parser src).1 (parserFeedBytes parser src).2 := by
  induction src generalizing parser with
  | nil => exact bufBound_parserTryOne (Nat.le_of_lt h)
  | cons byte src ih =>
    have hlen : (parser.buf ++ [byte]).length ≤ mcLinkMaxFrameLen := by
      rw [List.length_append, List.length_singleton]
      omega
    rw [parserFeedBytes]
    dsimp only
    split_ifs with hdiscard hdelim hfull
    · exact ih h
    · have hbound := @bufBound_parserTryOne { parser with buf := parser.buf ++ [byte] } hlen
      split
      case h_1 frame parser' htry =>
        rw [htry] at hbound
        exact ⟨length_buf_parserKeepRest hbound.1 src, by simp⟩
      case h_2 parser' htry =>
        rw [htry] at hbound
        exact ih (hbound.2 rfl)
    · exact ih (by simp [parserDiscard])
    · exact ih (Nat.lt_of_le_of_ne hlen hfull)

theorem bufBound_mcLinkParserFeed {parser : McLinkParser}
    (h : parser.buf.length ≤ mcLinkMaxFrameLen) (src : List UInt8) :
    BufBound (mcLinkParserFeed parser src).1 (mcLinkParserFeed parser src).2 := by
  unfold mcLinkParserFeed
  split
  · exact bufBound_parserFeedBytes (by simp) src
  · have hbound := bufBound_parserTryBuffered h
    split
    case h_1 frame parser' htry => rwa [htry] at hbound
    case h_2 parser' htry =>
      rw [htry] at hbound
      exact bufBound_parserFeedBytes (hbound.2 rfl) src

end StarrySky.Link
