import StarrySky.Base.Delimited
import StarrySky.Link.Frame

/-! The stream parser of `core/src/mc_link.c`: a 512-byte buffer that is cut at
delimiters, and a discard mode for segments that do not fit. -/

namespace StarrySky.Link
open StarrySky.Base

/-- `mc_link_parser_t`; `buf` holds the first `len` bytes of the buffer. -/
structure McLinkParser where
  buf : List UInt8
  crcErrorCount : UInt32
  lengthErrorCount : UInt32
  resyncCount : UInt32
  discarding : Bool
deriving DecidableEq

def mcLinkParserInit : McLinkParser :=
  { buf := [], crcErrorCount := 0, lengthErrorCount := 0, resyncCount := 0, discarding := false }

def parserDrop (parser : McLinkParser) (count : ℕ) : McLinkParser :=
  { parser with buf := parser.buf.drop count }

/-- Give up on an overlong segment: drop what is buffered and skip to the next delimiter. -/
def parserDiscard (parser : McLinkParser) : McLinkParser :=
  { parser with
    buf := [], lengthErrorCount := parser.lengthErrorCount + 1,
    resyncCount := parser.resyncCount + 1, discarding := true }

def parserTryOne (parser : McLinkParser) : Option McLinkFrame × McLinkParser :=
  match firstFrameLen mcLinkDelimiter parser.buf with
  | some frameLen =>
    match decodeFrameWithScratch (parser.buf.take frameLen) mcLinkMaxBodyLen with
    | some frame => (some frame, parserDrop parser frameLen)
    | none =>
      let parser := { parser with resyncCount := parser.resyncCount + 1 }
      if frameLen = 1 ∨ frameLen > mcLinkMaxFrameLen then
        (none, parserDrop { parser with lengthErrorCount := parser.lengthErrorCount + 1 } frameLen)
      else (none, parserDrop { parser with crcErrorCount := parser.crcErrorCount + 1 } frameLen)
  | none =>
    if parser.buf.length = mcLinkMaxFrameLen then (none, parserDiscard parser) else (none, parser)

theorem length_buf_parserTryOne_le (parser : McLinkParser) :
    (parserTryOne parser).2.buf.length ≤ parser.buf.length := by
  unfold parserTryOne
  split
  · split
    · simp [parserDrop]
    · dsimp only
      split <;> simp [parserDrop]
  · split <;> simp [parserDiscard]

/-- The first loop of `mc_link_parser_feed`: retry while the buffer shrinks. -/
def parserTryBuffered (parser : McLinkParser) : Option McLinkFrame × McLinkParser :=
  match _h : parserTryOne parser with
  | (some frame, parser') => (some frame, parser')
  | (none, parser') =>
    if parser'.buf.length = parser.buf.length then (none, parser') else parserTryBuffered parser'
termination_by parser.buf.length
decreasing_by
  have := length_buf_parserTryOne_le parser
  rw [_h] at this
  simp only at this
  omega

/-- Buffer what follows the frame that was just found. -/
def parserKeepRest (parser : McLinkParser) (rest : List UInt8) : McLinkParser :=
  let capacity := mcLinkMaxFrameLen - parser.buf.length
  if rest.length > capacity then parserDiscard parser
  else
    let parser := { parser with buf := parser.buf ++ rest }
    if rest ≠ [] ∧ rest.length = capacity ∧ mcLinkDelimiter ∉ rest then parserDiscard parser
    else parser

/-- The byte loop of `mc_link_parser_feed` and the attempt after it. -/
def parserFeedBytes (parser : McLinkParser) : List UInt8 → Option McLinkFrame × McLinkParser
  | [] => parserTryOne parser
  | byte :: src =>
    if parser.discarding then
      parserFeedBytes { parser with discarding := byte ≠ mcLinkDelimiter } src
    else
      let parser := { parser with buf := parser.buf ++ [byte] }
      if byte = mcLinkDelimiter then
        match parserTryOne parser with
        | (some frame, parser) => (some frame, parserKeepRest parser src)
        | (none, parser) => parserFeedBytes parser src
      else if parser.buf.length = mcLinkMaxFrameLen then parserFeedBytes (parserDiscard parser) src
      else parserFeedBytes parser src

/-- A returned frame is `MC_LINK_PARSE_FRAME`, none is `MC_LINK_PARSE_NEED_MORE`. -/
def mcLinkParserFeed (parser : McLinkParser) (src : List UInt8) :
    Option McLinkFrame × McLinkParser :=
  if parser.discarding then parserFeedBytes { parser with buf := [] } src
  else
    match parserTryBuffered parser with
    | (some frame, parser) => (some frame, parser)
    | (none, parser) => parserFeedBytes parser src

/-- The least number of buffered bytes a parse result uses up. -/
def parsedLen : Option McLinkFrame → ℕ
  | some frame => frame.payload.length + 12
  | none => 0

@[simp] theorem parsedLen_none : parsedLen none = 0 := rfl
@[simp] theorem parsedLen_some (frame : McLinkFrame) :
    parsedLen (some frame) = frame.payload.length + 12 := rfl

theorem length_cobsDecodeLoop_le {dstCap : ℕ} {dst src body : List UInt8}
    (h : cobsDecodeLoop dstCap dst src = some body) :
    body.length ≤ dst.length + src.length := by
  induction dst, src using cobsDecodeLoop.induct dstCap with
  | case1 dst =>
    rw [cobsDecodeLoop] at h
    simp [Option.some.inj h]
  | case2 dst src => simp [cobsDecodeLoop] at h
  | case3 dst code src hzero copyLen hcopy =>
    rw [cobsDecodeLoop, if_neg hzero, if_pos hcopy] at h
    contradiction
  | case4 dst code src hzero copyLen hcopy hcap =>
    rw [cobsDecodeLoop, if_neg hzero, if_neg hcopy, if_pos hcap] at h
    contradiction
  | case5 dst code src hzero copyLen hcopy hcap written rest hgap hfull =>
    rw [cobsDecodeLoop, if_neg hzero, if_neg hcopy, if_neg hcap, if_pos hgap, if_pos hfull] at h
    contradiction
  | case6 dst code src hzero copyLen hcopy hcap written rest hgap hfull ih =>
    rw [cobsDecodeLoop, if_neg hzero, if_neg hcopy, if_neg hcap, if_pos hgap, if_neg hfull] at h
    have := ih h
    simp only [List.length_append, List.length_take, List.length_drop, List.length_cons,
      List.length_nil, copyLen, written, rest] at this ⊢
    omega
  | case7 dst code src hzero copyLen hcopy hcap written rest hgap ih =>
    rw [cobsDecodeLoop, if_neg hzero, if_neg hcopy, if_neg hcap, if_neg hgap] at h
    have := ih h
    simp only [List.length_append, List.length_take, List.length_drop, List.length_cons,
      copyLen, written, rest] at this ⊢
    omega

theorem length_payload_mcLinkParseBody_le {body : List UInt8} {frame : McLinkFrame}
    (h : mcLinkParseBody body = some frame) :
    frame.payload.length + 11 = body.length ∧ frame.payload.length ≤ mcLinkMaxPayload := by
  unfold mcLinkParseBody at h
  split at h
  case h_2 => contradiction
  case h_1 version type flags seq0 seq1 ack0 ack1 len0 len1 rest =>
    dsimp only at h
    split_ifs at h with hshort hversion hmax hexact
    split at h
    case h_2 => contradiction
    case h_1 crc0 crc1 tail hcrc =>
      split_ifs at h
      cases h
      simp only [mcLinkBodyHeaderLen, mcLinkCrcLen, List.length_cons, not_not, mcLinkMaxPayload,
        List.length_take] at *
      omega

theorem length_payload_lt_of_decode {src : List UInt8} {bodyCap : ℕ} {frame : McLinkFrame}
    (h : decodeFrameWithScratch src bodyCap = some frame) :
    frame.payload.length + 12 ≤ src.length ∧ frame.payload.length ≤ mcLinkMaxPayload := by
  unfold decodeFrameWithScratch at h
  split_ifs at h with hlast
  dsimp only at h
  split_ifs at h with hempty
  obtain ⟨body, hbody, hparse⟩ := Option.bind_eq_some_iff.mp h
  have hlen := length_cobsDecodeLoop_le hbody
  have hpayload := length_payload_mcLinkParseBody_le hparse
  simp only [List.length_dropLast, List.length_nil, not_or] at hlen hempty
  omega

theorem parsedLen_parserTryOne (parser : McLinkParser) :
    parsedLen (parserTryOne parser).1 + (parserTryOne parser).2.buf.length ≤
      parser.buf.length := by
  unfold parserTryOne
  split
  case h_1 frameLen hfirst =>
    split
    case h_1 frame hdecode =>
      have := (length_payload_lt_of_decode hdecode).1
      simp only [parsedLen, parserDrop, List.length_drop, List.length_take] at this ⊢
      omega
    case h_2 =>
      dsimp only
      split <;> simp [parsedLen, parserDrop]
  case h_2 => split <;> simp [parsedLen, parserDiscard]

theorem parsedLen_parserTryBuffered (parser : McLinkParser) :
    parsedLen (parserTryBuffered parser).1 + (parserTryBuffered parser).2.buf.length ≤
      parser.buf.length := by
  induction parser using parserTryBuffered.induct with
  | case1 parser frame parser' h =>
    have := parsedLen_parserTryOne parser
    rw [parserTryBuffered, h]
    simpa [h] using this
  | case2 parser parser' h hlen =>
    have := parsedLen_parserTryOne parser
    rw [parserTryBuffered, h]
    simp [hlen]
  | case3 parser parser' h hlen ih =>
    have := parsedLen_parserTryOne parser
    rw [parserTryBuffered, h]
    simp only [h, if_neg hlen, parsedLen_none] at this ⊢
    omega

theorem length_buf_parserKeepRest_le (parser : McLinkParser) (rest : List UInt8) :
    (parserKeepRest parser rest).buf.length ≤ parser.buf.length + rest.length := by
  unfold parserKeepRest
  dsimp only
  split_ifs <;> simp [parserDiscard]

theorem parsedLen_parserFeedBytes (parser : McLinkParser) (src : List UInt8) :
    parsedLen (parserFeedBytes parser src).1 + (parserFeedBytes parser src).2.buf.length ≤
      parser.buf.length + src.length := by
  induction src generalizing parser with
  | nil => simpa [parserFeedBytes] using parsedLen_parserTryOne parser
  | cons byte src ih =>
    rw [parserFeedBytes]
    dsimp only
    split_ifs with hdiscard hdelim hfull
    · have := ih { parser with discarding := byte ≠ mcLinkDelimiter }
      simp only [List.length_cons] at this ⊢
      omega
    · have htry := parsedLen_parserTryOne { parser with buf := parser.buf ++ [byte] }
      split
      case h_1 frame parser' h =>
        have := length_buf_parserKeepRest_le parser' src
        simp only [h, List.length_append, List.length_cons, List.length_nil] at htry ⊢
        omega
      case h_2 parser' h =>
        have := ih parser'
        simp only [h, List.length_append, List.length_cons, List.length_nil, parsedLen_none] at htry ⊢
        omega
    · have := ih (parserDiscard { parser with buf := parser.buf ++ [byte] })
      simp only [parserDiscard, List.length_cons, List.length_nil] at this ⊢
      omega
    · have := ih { parser with buf := parser.buf ++ [byte] }
      simp only [List.length_append, List.length_cons, List.length_nil] at this ⊢
      omega

theorem parsedLen_mcLinkParserFeed (parser : McLinkParser) (src : List UInt8) :
    parsedLen (mcLinkParserFeed parser src).1 + (mcLinkParserFeed parser src).2.buf.length ≤
      parser.buf.length + src.length := by
  unfold mcLinkParserFeed
  split
  · have := parsedLen_parserFeedBytes { parser with buf := [] } src
    simp only [List.length_nil] at this
    omega
  · have hbuffered := parsedLen_parserTryBuffered parser
    split
    case h_1 frame parser' h =>
      rw [h] at hbuffered
      exact Nat.le_trans hbuffered (Nat.le_add_right _ _)
    case h_2 parser' h =>
      have := parsedLen_parserFeedBytes parser' src
      simp only [h, parsedLen] at hbuffered
      omega

end StarrySky.Link
