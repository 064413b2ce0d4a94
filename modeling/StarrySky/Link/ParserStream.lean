import StarrySky.Link.ParserLemmas

/-! The stream parser on any bytes: it finds the segments that decode, whatever the reads it
is fed by. What it holds is computed from the bytes of the unfinished segment alone. -/

namespace StarrySky.Link
open StarrySky.Base

/-- The frame in a segment, which has its delimiter. -/
def linkSegment (segment : List UInt8) : Option McLinkFrame :=
  if segment.length ≤ mcLinkMaxFrameLen then mcLinkDecodeFrame segment else none

/-- The frames of a stream: its segments of fewer than 512 other bytes that decode. -/
def linkFrames (stream : List UInt8) : List McLinkFrame :=
  (cutFrames mcLinkDelimiter stream).1.filterMap linkSegment

/-- The bytes behind the last delimiter. -/
def linkTail (stream : List UInt8) : List UInt8 := (cutFrames mcLinkDelimiter stream).2

theorem linkFrames_of_notMem {stream : List UInt8} (h : mcLinkDelimiter ∉ stream) :
    linkFrames stream = [] := by
  rw [linkFrames, cutFrames_of_notMem h]
  rfl

theorem linkTail_of_notMem {stream : List UInt8} (h : mcLinkDelimiter ∉ stream) :
    linkTail stream = stream := by
  rw [linkTail, cutFrames_of_notMem h]

theorem linkFrames_frame {segment : List UInt8} (h : IsFrame mcLinkDelimiter segment)
    (stream : List UInt8) :
    linkFrames (segment ++ stream) = (linkSegment segment).toList ++ linkFrames stream := by
  rw [linkFrames, cutFrames_frame h, List.filterMap_cons]
  cases linkSegment segment with
  | none => rfl
  | some frame => rfl

theorem linkTail_frame {segment : List UInt8} (h : IsFrame mcLinkDelimiter segment)
    (stream : List UInt8) : linkTail (segment ++ stream) = linkTail stream := by
  rw [linkTail, cutFrames_frame h, linkTail]

theorem linkFrames_append (xs ys : List UInt8) :
    linkFrames (xs ++ ys) = linkFrames xs ++ linkFrames (linkTail xs ++ ys) := by
  rw [linkFrames, cutFrames_append, List.filterMap_append]
  rfl

theorem linkTail_append (xs ys : List UInt8) :
    linkTail (xs ++ ys) = linkTail (linkTail xs ++ ys) := by
  rw [linkTail, cutFrames_append]
  rfl

theorem isFrame_snoc {body : List UInt8} (h : mcLinkDelimiter ∉ body) :
    IsFrame mcLinkDelimiter (body ++ [mcLinkDelimiter]) := ⟨body, rfl, h⟩

theorem linkSegment_of_lt {body : List UInt8} (h : mcLinkMaxFrameLen ≤ body.length) :
    linkSegment (body ++ [mcLinkDelimiter]) = none := by
  apply if_neg
  rw [List.length_append, List.length_singleton]
  omega

theorem linkSegment_of_le {segment : List UInt8} (h : segment.length ≤ mcLinkMaxFrameLen) :
    linkSegment segment = mcLinkDecodeFrame segment := if_pos h

/-- The parser has taken the bytes `pending`; it only counts on with those of a segment that
is too long. -/
inductive McLinkParser.Holds (parser : McLinkParser) (pending : List UInt8) : Prop
  | buffered (hdiscarding : parser.discarding = false) (hbuf : parser.buf = pending)
      (hlen : pending.length < mcLinkMaxFrameLen)
  | skipping (hdiscarding : parser.discarding = true) (hbuf : parser.buf = [])
      (hlen : mcLinkMaxFrameLen ≤ pending.length) (hdelim : mcLinkDelimiter ∉ pending)

/-- A call has found the first frame of the stream, if any, and the parser holds the rest. -/
def Parses (stream : List UInt8) (result : Option McLinkFrame × McLinkParser) : Prop :=
  ∃ rest, linkFrames stream = result.1.toList ++ linkFrames rest ∧
    linkTail stream = linkTail rest ∧ result.2.Holds rest ∧
    (result.1 = none → mcLinkDelimiter ∉ rest)

theorem parses_none {parser : McLinkParser} {stream : List UInt8} (h : parser.Holds stream)
    (hdelim : mcLinkDelimiter ∉ stream) : Parses stream (none, parser) :=
  ⟨stream, rfl, rfl, h, fun _ => hdelim⟩

theorem Parses.skip {segment stream : List UInt8} {result : Option McLinkFrame × McLinkParser}
    (h : Parses stream result) (hframe : IsFrame mcLinkDelimiter segment)
    (hnone : linkSegment segment = none) : Parses (segment ++ stream) result := by
  obtain ⟨rest, hframes, htail, hholds, hclean⟩ := h
  refine ⟨rest, ?_, ?_, hholds, hclean⟩
  · rw [linkFrames_frame hframe, hnone]
    exact hframes
  · rw [linkTail_frame hframe]
    exact htail

theorem parses_some {parser : McLinkParser} {segment stream : List UInt8} {frame : McLinkFrame}
    (h : parser.Holds stream) (hframe : IsFrame mcLinkDelimiter segment)
    (hsome : linkSegment segment = some frame) : Parses (segment ++ stream) (some frame, parser) := by
  refine ⟨stream, ?_, linkTail_frame hframe stream, h, fun hnone => by cases hnone⟩
  rw [linkFrames_frame hframe, hsome]

theorem parserTryOne_segment {parser : McLinkParser} {segment rest : List UInt8}
    (hframe : IsFrame mcLinkDelimiter segment) (hbuf : parser.buf = segment ++ rest)
    (hlen : segment.length ≤ mcLinkMaxFrameLen) :
    (parserTryOne parser).1 = linkSegment segment ∧ (parserTryOne parser).2.buf = rest ∧
      (parserTryOne parser).2.discarding = parser.discarding := by
  rw [linkSegment_of_le hlen, mcLinkDecodeFrame, parserTryOne, hbuf, firstFrameLen_frame hframe]
  dsimp only
  rw [List.take_left]
  cases decodeFrameWithScratch segment mcLinkMaxBodyLen with
  | some frame =>
    refine ⟨rfl, ?_, rfl⟩
    show parser.buf.drop segment.length = rest
    rw [hbuf, List.drop_left]
  | none =>
    dsimp only
    split_ifs
    · exact ⟨rfl, List.drop_left, rfl⟩
    · exact ⟨rfl, List.drop_left, rfl⟩

theorem holds_parserKeepRest {parser : McLinkParser} (hdiscarding : parser.discarding = false)
    (hbuf : parser.buf = []) {src : List UInt8} (hsrc : src.length < mcLinkMaxFrameLen) :
    (parserKeepRest parser src).Holds src := by
  rw [parserKeepRest]
  dsimp only
  rw [hbuf, List.length_nil, Nat.sub_zero, if_neg (by omega), if_neg (by omega), List.nil_append]
  exact .buffered hdiscarding rfl hsrc

theorem holds_parserDiscard {parser : McLinkParser} {pending : List UInt8}
    (hlen : mcLinkMaxFrameLen ≤ pending.length) (hdelim : mcLinkDelimiter ∉ pending) :
    (parserDiscard parser).Holds pending := .skipping rfl rfl hlen hdelim

/-- The byte loop, from a parser whose pending bytes are one unfinished segment. -/
theorem parses_parserFeedBytes (src : List UInt8) {parser : McLinkParser} {pending : List UInt8}
    (hholds : parser.Holds pending) (hdelim : mcLinkDelimiter ∉ pending)
    (hsrc : src.length ≤ mcLinkMaxFrameLen) :
    Parses (pending ++ src) (parserFeedBytes parser src) := by
  induction src generalizing parser pending with
  | nil =>
    rw [parserFeedBytes, List.append_nil]
    have hnotMem : mcLinkDelimiter ∉ parser.buf ∧ parser.buf.length < mcLinkMaxFrameLen := by
      cases hholds with
      | buffered _ hbuf hlen =>
        rw [hbuf]
        exact ⟨hdelim, hlen⟩
      | skipping _ hbuf =>
        rw [hbuf]
        exact ⟨List.not_mem_nil, by decide⟩
    rw [parserTryOne_of_notMem hnotMem.1 hnotMem.2]
    exact parses_none hholds hdelim
  | cons byte src ih =>
    have hsrc' : src.length ≤ mcLinkMaxFrameLen := (Nat.le_succ _).trans hsrc
    have hsplit : pending ++ byte :: src = (pending ++ [byte]) ++ src := by simp
    have hclean : byte ≠ mcLinkDelimiter → mcLinkDelimiter ∉ pending ++ [byte] := by
      intro hbyte hmem
      rcases List.mem_append.mp hmem with hmem | hmem
      · exact hdelim hmem
      · exact hbyte (List.mem_singleton.mp hmem).symm
    have hempty : (⟨[], parser.crcErrorCount, parser.lengthErrorCount, parser.resyncCount,
        false⟩ : McLinkParser).Holds [] := .buffered rfl rfl (by decide)
    rw [hsplit, parserFeedBytes]
    cases hholds with
    | skipping hdiscarding hbuf hlen _ =>
      rw [if_pos hdiscarding]
      by_cases hbyte : byte = mcLinkDelimiter
      · -- the end of the overlong segment
        rw [hbyte]
        have hopened : ({ parser with discarding := false } : McLinkParser).Holds [] :=
          .buffered rfl hbuf (by decide)
        have hnext := ih hopened List.not_mem_nil hsrc'
        have hskip := hnext.skip (isFrame_snoc hdelim) (linkSegment_of_lt hlen)
        simpa using hskip
      · apply ih _ (hclean hbyte) hsrc'
        refine .skipping (decide_eq_true hbyte) hbuf ?_ (hclean hbyte)
        rw [List.length_append]
        exact hlen.trans (Nat.le_add_right _ _)
    | buffered hdiscarding hbuf hlen =>
      rw [if_neg (by rw [hdiscarding]; exact Bool.false_ne_true)]
      dsimp only
      have hlength : (pending ++ [byte]).length ≤ mcLinkMaxFrameLen := by
        rw [List.length_append, List.length_singleton]
        exact hlen
      rw [hbuf]
      by_cases hbyte : byte = mcLinkDelimiter
      · -- the end of a segment that was buffered whole
        rw [if_pos hbyte]
        subst hbyte
        have hframe := isFrame_snoc hdelim
        have hwhole : ({ parser with buf := pending ++ [mcLinkDelimiter] } : McLinkParser).buf =
            (pending ++ [mcLinkDelimiter]) ++ [] := by rw [List.append_nil]
        obtain ⟨hfound, hrest, hmode⟩ := parserTryOne_segment hframe hwhole hlength
        rcases htry : parserTryOne { parser with buf := pending ++ [mcLinkDelimiter] } with
          ⟨found, next⟩
        rw [htry] at hfound hrest hmode
        cases found with
        | some frame =>
          exact parses_some (holds_parserKeepRest (hmode.trans hdiscarding) hrest hsrc) hframe
            hfound.symm
        | none =>
          have hemptied : next.Holds [] :=
            .buffered (hmode.trans hdiscarding) hrest (by decide)
          have hnext := ih hemptied List.not_mem_nil hsrc'
          exact hnext.skip hframe hfound.symm
      · rw [if_neg hbyte]
        by_cases hfull : (pending ++ [byte]).length = mcLinkMaxFrameLen
        · rw [if_pos hfull]
          exact ih (holds_parserDiscard hfull.ge (hclean hbyte)) (hclean hbyte) hsrc'
        · rw [if_neg hfull]
          exact ih (.buffered hdiscarding rfl (lt_of_le_of_ne hlength hfull)) (hclean hbyte) hsrc'

theorem parses_parserTryBuffered {parser : McLinkParser} {pending : List UInt8}
    (hdiscarding : parser.discarding = false) (hbuf : parser.buf = pending)
    (hlen : pending.length < mcLinkMaxFrameLen) : Parses pending (parserTryBuffered parser) := by
  induction hn : pending.length using Nat.strong_induction_on generalizing parser pending with
  | _ n ih =>
  by_cases hmem : mcLinkDelimiter ∈ pending
  case neg =>
    rw [parserTryBuffered_of_notMem (by rwa [hbuf]) (by rwa [hbuf])]
    exact parses_none (.buffered hdiscarding hbuf hlen) hmem
  obtain ⟨body, rest, hpending, hbody⟩ := List.eq_append_cons_of_mem hmem
  have hsegment : pending = (body ++ [mcLinkDelimiter]) ++ rest := by simp [hpending]
  have hframe := isFrame_snoc hbody
  have hlength : (body ++ [mcLinkDelimiter]).length + rest.length = pending.length := by
    rw [hsegment, ← List.length_append]
  have hpos := hframe.length_pos
  obtain ⟨hfound, hrest, hmode⟩ := parserTryOne_segment hframe (hbuf.trans hsegment) (by omega)
  rw [hsegment, parserTryBuffered]
  split
  case h_1 frame next htry =>
    rw [htry] at hfound hrest hmode
    exact parses_some (.buffered (hmode.trans hdiscarding) hrest (by omega)) hframe hfound.symm
  case h_2 next htry =>
    rw [htry] at hfound hrest hmode
    dsimp only at hrest
    rw [if_neg (by rw [hrest, hbuf]; omega)]
    have hnext := ih rest.length (by omega) (hmode.trans hdiscarding) hrest (by omega) rfl
    exact hnext.skip hframe hfound.symm

theorem parses_mcLinkParserFeed {parser : McLinkParser} {pending src : List UInt8}
    (hholds : parser.Holds pending) (hdelim : mcLinkDelimiter ∉ pending ∨ src = [])
    (hsrc : src.length ≤ mcLinkMaxFrameLen) :
    Parses (pending ++ src) (mcLinkParserFeed parser src) := by
  rw [mcLinkParserFeed]
  cases hholds with
  | skipping hdiscarding hbuf hlen hclean =>
    rw [if_pos hdiscarding]
    exact parses_parserFeedBytes src (.skipping hdiscarding rfl hlen hclean) hclean hsrc
  | buffered hdiscarding hbuf hlen =>
    rw [if_neg (by rw [hdiscarding]; exact Bool.false_ne_true)]
    rcases hdelim with hclean | rfl
    · rw [parserTryBuffered_of_notMem (by rwa [hbuf]) (by rwa [hbuf])]
      exact parses_parserFeedBytes src (.buffered hdiscarding hbuf hlen) hclean hsrc
    · rw [List.append_nil]
      obtain ⟨rest, hframes, htail, hrest, hclean⟩ :=
        parses_parserTryBuffered hdiscarding hbuf hlen
      rcases hbuffered : parserTryBuffered parser with ⟨found, next⟩
      rw [hbuffered] at hframes hrest hclean
      cases found with
      | some frame => exact ⟨rest, hframes, htail, hrest, hclean⟩
      | none =>
        obtain ⟨rest', hframes', htail', hrest', hclean'⟩ :=
          parses_parserFeedBytes [] hrest (hclean rfl) (Nat.zero_le _)
        rw [List.append_nil] at hframes' htail'
        exact ⟨rest', hframes.trans hframes', htail.trans htail', hrest', hclean'⟩

/-- Further calls without bytes, up to the first that finds no frame. -/
def parserDrain (parser : McLinkParser) (found : Option McLinkFrame) :
    List McLinkFrame × McLinkParser :=
  match found with
  | none => ([], parser)
  | some frame =>
    let parsed := mcLinkParserFeed parser []
    let drained := parserDrain parsed.2 parsed.1
    (frame :: drained.1, drained.2)
termination_by parser.buf.length + parsedLen found
decreasing_by
  have hparsed := parsedLen_mcLinkParserFeed parser []
  simp only [parsedLen_some, List.length_nil] at hparsed ⊢
  omega

/-- One read, as `mc_link_session_receive_bytes` feeds it. -/
def parserRead (parser : McLinkParser) (src : List UInt8) : List McLinkFrame × McLinkParser :=
  let parsed := mcLinkParserFeed parser src
  parserDrain parsed.2 parsed.1

def parserReads (parser : McLinkParser) : List (List UInt8) → List McLinkFrame × McLinkParser
  | [] => ([], parser)
  | src :: reads =>
    let read := parserRead parser src
    let rest := parserReads read.2 reads
    (read.1 ++ rest.1, rest.2)

theorem parserDrain_spec {parser : McLinkParser} {found : Option McLinkFrame}
    {rest : List UInt8} (hholds : parser.Holds rest)
    (hclean : found = none → mcLinkDelimiter ∉ rest) :
    (parserDrain parser found).1 = found.toList ++ linkFrames rest ∧
      (parserDrain parser found).2.Holds (linkTail rest) := by
  induction parser, found using parserDrain.induct generalizing rest with
  | case1 parser =>
    rw [parserDrain, linkFrames_of_notMem (hclean rfl), linkTail_of_notMem (hclean rfl)]
    exact ⟨rfl, hholds⟩
  | case2 parser frame parsed =>
    rename_i ih
    have hparses := parses_mcLinkParserFeed hholds (.inr rfl) (Nat.zero_le _)
    rw [List.append_nil] at hparses
    obtain ⟨rest', hframes, htail, hholds', hclean'⟩ := hparses
    obtain ⟨hfound, hdrained⟩ := ih hholds' hclean'
    rw [parserDrain, htail, hframes]
    dsimp only
    rw [hfound]
    exact ⟨rfl, hdrained⟩

theorem notMem_linkTail (stream : List UInt8) : mcLinkDelimiter ∉ linkTail stream := by
  induction stream with
  | nil => exact List.not_mem_nil
  | cons x xs ih =>
    rw [linkTail, cutFrames]
    split_ifs with hx
    · exact ih
    · rw [linkTail] at ih
      cases hcut : cutFrames mcLinkDelimiter xs with
      | mk frames rest =>
        rw [hcut] at ih
        cases frames with
        | nil =>
          intro hmem
          rcases List.mem_cons.mp hmem with hmem | hmem
          · exact hx hmem.symm
          · exact ih hmem
        | cons frame frames => exact ih

theorem parserReads_spec {reads : List (List UInt8)}
    (hreads : ∀ src ∈ reads, src.length ≤ mcLinkMaxFrameLen) {parser : McLinkParser}
    {pending : List UInt8} (hholds : parser.Holds pending) (hdelim : mcLinkDelimiter ∉ pending) :
    (parserReads parser reads).1 = linkFrames (pending ++ reads.flatten) := by
  induction reads generalizing parser pending with
  | nil =>
    rw [parserReads, List.flatten_nil, List.append_nil, linkFrames_of_notMem hdelim]
  | cons src reads ih =>
    obtain ⟨rest, hframes, htail, hholds', hclean⟩ :=
      parses_mcLinkParserFeed hholds (.inl hdelim) (hreads src List.mem_cons_self)
    obtain ⟨hread, hdrained⟩ := parserDrain_spec hholds' hclean
    rw [← htail] at hdrained
    have hrest := ih (fun s hs => hreads s (List.mem_cons_of_mem _ hs)) hdrained
      (notMem_linkTail _)
    rw [parserReads, parserRead]
    dsimp only
    rw [hread, ← hframes, hrest, List.flatten_cons, ← List.append_assoc, ← linkFrames_append]

end StarrySky.Link
