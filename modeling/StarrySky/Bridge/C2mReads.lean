import StarrySky.Bridge.C2mFilter

/-! The filter and the boundaries of the client's TCP reads. What a call does is computed from
the bytes buffered and pushed alone; where one read ends does not matter unless the filter has
given up on its bytes there. -/

namespace StarrySky.Bridge
open StarrySky.Base

/-- What the filter passes on of a buffer, and what stays in it. -/
def filterBytes (bytes : List UInt8) : List UInt8 × List UInt8 :=
  match _h : readMinecraftVarint bytes with
  | .complete value width =>
    if value > minecraftFrameLengthLimit then (bytes, [])
    else if bytes.length < width + value then ([], bytes)
    else
      let rest := filterBytes (bytes.drop (width + value))
      if shouldForwardMinecraftFrame (bytes.take (width + value)) then
        (bytes.take (width + value) ++ rest.1, rest.2)
      else rest
  | .incomplete => ([], bytes)
  | .invalid => (bytes, [])
termination_by bytes.length
decreasing_by
  have := width_pos_of_complete _h
  simp only [List.length_drop]
  omega

theorem drainLoop_filterBytes (sender : C2mSender) (stats : C2mFilterStats) :
    (sender.drainLoop stats).1 =
        { sender with
          pendingTcp := sender.pendingTcp ++ (filterBytes sender.minecraftFrameBuffer).1
          minecraftFrameBuffer := (filterBytes sender.minecraftFrameBuffer).2 } ∧
      (sender.drainLoop stats).2.forwardedBytes =
        stats.forwardedBytes + (filterBytes sender.minecraftFrameBuffer).1.length := by
  induction sender, stats using C2mSender.drainLoop.induct with
  | case1 sender stats value width h hlimit =>
    rw [C2mSender.drainLoop, filterBytes, h]
    dsimp only
    rw [if_pos hlimit, if_pos hlimit]
    exact ⟨rfl, rfl⟩
  | case2 sender stats value width h hlimit frameLen hshort =>
    rw [C2mSender.drainLoop, filterBytes, h]
    dsimp only
    rw [if_neg hlimit, if_neg hlimit, if_pos hshort, if_pos hshort, List.append_nil]
    exact ⟨rfl, rfl⟩
  | case3 sender stats value width h hlimit frameLen hshort frame rest hforward ih =>
    rw [C2mSender.drainLoop, filterBytes, h]
    dsimp only
    rw [if_neg hlimit, if_neg hlimit, if_neg hshort, if_neg hshort, if_pos hforward,
      if_pos hforward, ih.1, ih.2]
    refine ⟨by rw [List.append_assoc], ?_⟩
    dsimp only
    have hlen : (sender.minecraftFrameBuffer.take (width + value)).length = width + value :=
      List.length_take_of_le (Nat.le_of_not_lt hshort)
    rw [List.length_append, hlen, Nat.add_assoc]
  | case4 sender stats value width h hlimit frameLen hshort frame rest hforward ih =>
    rw [C2mSender.drainLoop, filterBytes, h]
    dsimp only
    rw [if_neg hlimit, if_neg hlimit, if_neg hshort, if_neg hshort, if_neg hforward,
      if_neg hforward]
    exact ih
  | case5 sender stats h =>
    rw [C2mSender.drainLoop, filterBytes, h]
    exact ⟨by rw [List.append_nil], rfl⟩
  | case6 sender stats h =>
    rw [C2mSender.drainLoop, filterBytes, h]
    exact ⟨rfl, rfl⟩

theorem pushFilteredTcpBytes_eq (sender : C2mSender) (data : List UInt8) :
    (sender.pushFilteredTcpBytes data).1 =
        { sender with
          pendingTcp := sender.pendingTcp ++
            (filterBytes (sender.minecraftFrameBuffer ++ data)).1
          minecraftFrameBuffer := (filterBytes (sender.minecraftFrameBuffer ++ data)).2 } ∧
      (sender.pushFilteredTcpBytes data).2.forwardedBytes =
        (filterBytes (sender.minecraftFrameBuffer ++ data)).1.length := by
  obtain ⟨hsender, hstats⟩ := drainLoop_filterBytes { sender with
    minecraftFrameBuffer := sender.minecraftFrameBuffer ++ data }
    { forwardedBytes := 0, droppedMovementFrames := 0, bufferedBytes := 0 }
  rw [C2mSender.pushFilteredTcpBytes, C2mSender.drainFilteredMinecraftFrames, hsender]
  exact ⟨rfl, hstats.trans (Nat.zero_add _)⟩

/-- Whole frames, and then a length that is malformed or over the limit. -/
inductive FailsOpen : List UInt8 → Prop
  | invalid {bytes : List UInt8} (hread : readMinecraftVarint bytes = .invalid) : FailsOpen bytes
  | oversized {bytes : List UInt8} {value width : ℕ}
      (hread : readMinecraftVarint bytes = .complete value width)
      (hlimit : minecraftFrameLengthLimit < value) : FailsOpen bytes
  | frame {bytes : List UInt8} {value width : ℕ}
      (hread : readMinecraftVarint bytes = .complete value width)
      (hlimit : value ≤ minecraftFrameLengthLimit) (hwhole : width + value ≤ bytes.length)
      (hrest : FailsOpen (bytes.drop (width + value))) : FailsOpen bytes

/-- Whole frames that are forwarded, and then nothing or a length that is malformed or over the
limit. -/
inductive PassesWhole : List UInt8 → Prop
  | nil : PassesWhole []
  | invalid {bytes : List UInt8} (hread : readMinecraftVarint bytes = .invalid) :
      PassesWhole bytes
  | oversized {bytes : List UInt8} {value width : ℕ}
      (hread : readMinecraftVarint bytes = .complete value width)
      (hlimit : minecraftFrameLengthLimit < value) : PassesWhole bytes
  | frame {bytes : List UInt8} {value width : ℕ}
      (hread : readMinecraftVarint bytes = .complete value width)
      (hlimit : value ≤ minecraftFrameLengthLimit) (hwhole : width + value ≤ bytes.length)
      (hforward : shouldForwardMinecraftFrame (bytes.take (width + value)) = true)
      (hrest : PassesWhole (bytes.drop (width + value))) : PassesWhole bytes

theorem readMinecraftVarint_append {bytes : List UInt8} {value width : ℕ}
    (h : readMinecraftVarint bytes = .complete value width) (more : List UInt8) :
    readMinecraftVarint (bytes ++ more) = .complete value width := by
  obtain ⟨encoding, rest, rfl, hencoding, rfl, hlen⟩ := isVarint_of_readMinecraftVarint h
  rw [List.append_assoc]
  exact readMinecraftVarint_of_isVarint hencoding hlen _

theorem readMinecraftVarint_invalid_append {bytes : List UInt8}
    (h : readMinecraftVarint bytes = .invalid) (more : List UInt8) :
    readMinecraftVarint (bytes ++ more) = .invalid := by
  unfold readMinecraftVarint at h ⊢
  split at h
  · contradiction
  · rename_i hloop
    split_ifs at h with hshort
    rw [List.take_append_of_le_length (Nat.le_of_not_lt hshort), hloop]
    dsimp only
    rw [if_neg]
    rw [List.length_append]
    omega

theorem filterBytes_invalid {bytes : List UInt8} (h : readMinecraftVarint bytes = .invalid) :
    filterBytes bytes = (bytes, []) := by
  rw [filterBytes, h]

theorem filterBytes_oversized {bytes : List UInt8} {value width : ℕ}
    (h : readMinecraftVarint bytes = .complete value width)
    (hlimit : minecraftFrameLengthLimit < value) : filterBytes bytes = (bytes, []) := by
  rw [filterBytes, h]
  exact if_pos hlimit

theorem filterBytes_frame {bytes : List UInt8} {value width : ℕ}
    (h : readMinecraftVarint bytes = .complete value width)
    (hlimit : value ≤ minecraftFrameLengthLimit) (hwhole : width + value ≤ bytes.length) :
    filterBytes bytes =
      ((if shouldForwardMinecraftFrame (bytes.take (width + value)) then
          bytes.take (width + value) else []) ++
        (filterBytes (bytes.drop (width + value))).1,
        (filterBytes (bytes.drop (width + value))).2) := by
  rw [filterBytes, h]
  dsimp only
  rw [if_neg (Nat.not_lt.mpr hlimit), if_neg (Nat.not_lt.mpr hwhole)]
  split_ifs
  · rfl
  · rfl

theorem FailsOpen.filterBytes_append {bytes : List UInt8} (h : FailsOpen bytes)
    (more : List UInt8) :
    (filterBytes bytes).2 = [] ∧
      filterBytes (bytes ++ more) = ((filterBytes bytes).1 ++ more, []) := by
  induction h with
  | invalid hread =>
    rw [filterBytes_invalid hread,
      filterBytes_invalid (readMinecraftVarint_invalid_append hread more)]
    exact ⟨rfl, rfl⟩
  | oversized hread hlimit =>
    rw [filterBytes_oversized hread hlimit,
      filterBytes_oversized (readMinecraftVarint_append hread more) hlimit]
    exact ⟨rfl, rfl⟩
  | @frame bytes value width hread hlimit hwhole _ ih =>
    have hwhole' : width + value ≤ (bytes ++ more).length := by
      rw [List.length_append]
      exact hwhole.trans (Nat.le_add_right _ _)
    rw [filterBytes_frame hread hlimit hwhole,
      filterBytes_frame (readMinecraftVarint_append hread more) hlimit hwhole',
      List.take_append_of_le_length hwhole, List.drop_append_of_le_length hwhole, ih.2]
    exact ⟨ih.1, by rw [List.append_assoc]⟩

theorem filterBytes_append {bytes : List UInt8} (h : ¬ FailsOpen bytes) (more : List UInt8) :
    filterBytes (bytes ++ more) =
      ((filterBytes bytes).1 ++ (filterBytes ((filterBytes bytes).2 ++ more)).1,
        (filterBytes ((filterBytes bytes).2 ++ more)).2) := by
  induction hn : bytes.length using Nat.strong_induction_on generalizing bytes with
  | _ n ih =>
  cases hread : readMinecraftVarint bytes with
  | invalid => exact absurd (.invalid hread) h
  | incomplete =>
    have hwait : filterBytes bytes = ([], bytes) := by rw [filterBytes, hread]
    rw [hwait, List.nil_append]
  | complete value width =>
    by_cases hlimit : minecraftFrameLengthLimit < value
    · exact absurd (.oversized hread hlimit) h
    rw [Nat.not_lt] at hlimit
    by_cases hwhole : width + value ≤ bytes.length
    · have hwhole' : width + value ≤ (bytes ++ more).length := by
        rw [List.length_append]
        exact hwhole.trans (Nat.le_add_right _ _)
      have hrest : ¬ FailsOpen (bytes.drop (width + value)) :=
        fun hrest => h (.frame hread hlimit hwhole hrest)
      have hpos := width_pos_of_complete hread
      have hshort : (bytes.drop (width + value)).length < n := by
        rw [List.length_drop]
        omega
      rw [filterBytes_frame hread hlimit hwhole,
        filterBytes_frame (readMinecraftVarint_append hread more) hlimit hwhole',
        List.take_append_of_le_length hwhole, List.drop_append_of_le_length hwhole,
        ih _ hshort hrest rfl, List.append_assoc]
    · have hwait : filterBytes bytes = ([], bytes) := by
        rw [filterBytes, hread]
        dsimp only
        rw [if_neg (Nat.not_lt.mpr hlimit), if_pos (Nat.lt_of_not_le hwhole)]
      rw [hwait, List.nil_append]

theorem length_filterBytes_le (bytes : List UInt8) :
    (filterBytes bytes).1.length ≤ bytes.length := by
  induction bytes using filterBytes.induct with
  | case1 bytes value width h hlimit => rw [filterBytes_oversized h hlimit]
  | case2 bytes value width h hlimit hshort =>
    rw [filterBytes, h]
    dsimp only
    rw [if_neg hlimit, if_pos hshort]
    exact Nat.zero_le _
  | case3 bytes value width h hlimit hshort hforward ih =>
    rw [filterBytes_frame h (Nat.le_of_not_lt hlimit) (Nat.le_of_not_lt hshort), if_pos hforward]
    rw [List.length_drop] at ih
    rw [List.length_append, List.length_take_of_le (Nat.le_of_not_lt hshort)]
    omega
  | case4 bytes value width h hlimit hshort hforward ih =>
    rw [filterBytes_frame h (Nat.le_of_not_lt hlimit) (Nat.le_of_not_lt hshort), if_neg hforward]
    rw [List.length_drop] at ih
    rw [List.nil_append]
    exact ih.trans (Nat.sub_le _ _)
  | case5 bytes h =>
    rw [filterBytes, h]
    exact Nat.zero_le _
  | case6 bytes h => rw [filterBytes_invalid h]

theorem filterBytes_eq_iff (bytes : List UInt8) :
    filterBytes bytes = (bytes, []) ↔ PassesWhole bytes := by
  constructor
  · intro hpass
    induction bytes using filterBytes.induct with
    | case1 bytes value width h hlimit => exact .oversized h hlimit
    | case2 bytes value width h hlimit hshort =>
      rw [filterBytes, h] at hpass
      dsimp only at hpass
      rw [if_neg hlimit, if_pos hshort] at hpass
      rw [(Prod.mk.inj hpass).2]
      exact .nil
    | case3 bytes value width h hlimit hshort hforward ih =>
      rw [filterBytes_frame h (Nat.le_of_not_lt hlimit) (Nat.le_of_not_lt hshort),
        if_pos hforward] at hpass
      obtain ⟨hbytes, hrest⟩ := Prod.mk.inj hpass
      have hdrop : (filterBytes (bytes.drop (width + value))).1 = bytes.drop (width + value) := by
        apply List.append_cancel_left
        rw [List.take_append_drop]
        exact hbytes
      exact .frame h (Nat.le_of_not_lt hlimit) (Nat.le_of_not_lt hshort) hforward
        (ih (Prod.ext hdrop hrest))
    | case4 bytes value width h hlimit hshort hforward ih =>
      -- the dropped frame is missing
      rw [filterBytes_frame h (Nat.le_of_not_lt hlimit) (Nat.le_of_not_lt hshort),
        if_neg hforward, List.nil_append] at hpass
      have hlen := length_filterBytes_le (bytes.drop (width + value))
      have hpos := width_pos_of_complete h
      rw [(Prod.mk.inj hpass).1, List.length_drop] at hlen
      omega
    | case5 bytes h =>
      rw [filterBytes, h] at hpass
      rw [(Prod.mk.inj hpass).2]
      exact .nil
    | case6 bytes h => exact .invalid h
  · intro hpass
    induction hpass with
    | nil =>
      rw [filterBytes]
      rfl
    | invalid hread => exact filterBytes_invalid hread
    | oversized hread hlimit => exact filterBytes_oversized hread hlimit
    | frame hread hlimit hwhole hforward _ ih =>
      rw [filterBytes_frame hread hlimit hwhole, if_pos hforward, ih, List.take_append_drop]

/-- Two reads and the two as one leave the same bytes pending and buffered exactly if the filter
does not give up on the first, or the second read alone passes whole. -/
theorem pushFilteredTcpBytes_append_iff (sender : C2mSender) (a b : List UInt8) :
    (((sender.pushFilteredTcpBytes a).1.pushFilteredTcpBytes b).1.pendingTcp =
        (sender.pushFilteredTcpBytes (a ++ b)).1.pendingTcp ∧
      ((sender.pushFilteredTcpBytes a).1.pushFilteredTcpBytes b).1.minecraftFrameBuffer =
        (sender.pushFilteredTcpBytes (a ++ b)).1.minecraftFrameBuffer) ↔
      (¬ FailsOpen (sender.minecraftFrameBuffer ++ a) ∨ PassesWhole b) := by
  rw [(pushFilteredTcpBytes_eq _ b).1, (pushFilteredTcpBytes_eq sender a).1,
    (pushFilteredTcpBytes_eq sender (a ++ b)).1, ← List.append_assoc]
  dsimp only
  by_cases hfails : FailsOpen (sender.minecraftFrameBuffer ++ a)
  · obtain ⟨hempty, happend⟩ := hfails.filterBytes_append b
    rw [hempty, happend, List.nil_append, List.append_assoc, List.append_right_inj,
      List.append_right_inj, ← filterBytes_eq_iff, Prod.ext_iff]
    exact ⟨.inr, fun h => h.resolve_left (not_not_intro hfails)⟩
  · rw [filterBytes_append hfails b, List.append_assoc]
    exact iff_of_true ⟨rfl, rfl⟩ (.inl hfails)

/-- The head of a frame of 8193 bytes is forwarded, and the bytes that follow in the next read
are taken for a movement packet and dropped. -/
theorem pushFilteredTcpBytes_splitsOversized :
    (((C2mSender.new 497 512).pushFilteredTcpBytes [0x81, 0x40]).1.pushFilteredTcpBytes
        [0x03, 0x00, 0x03, 0x01]).1.pendingTcp = [0x81, 0x40] ∧
      ((C2mSender.new 497 512).pushFilteredTcpBytes
        [0x81, 0x40, 0x03, 0x00, 0x03, 0x01]).1.pendingTcp =
        [0x81, 0x40, 0x03, 0x00, 0x03, 0x01] := by
  decide +kernel

theorem FailsOpen.append {bytes : List UInt8} (h : FailsOpen bytes) (more : List UInt8) :
    FailsOpen (bytes ++ more) := by
  induction h with
  | invalid hread => exact .invalid (readMinecraftVarint_invalid_append hread more)
  | oversized hread hlimit => exact .oversized (readMinecraftVarint_append hread more) hlimit
  | @frame bytes value width hread hlimit hwhole _ ih =>
    have hwhole' : width + value ≤ (bytes ++ more).length := by
      rw [List.length_append]
      exact hwhole.trans (Nat.le_add_right _ _)
    apply FailsOpen.frame (readMinecraftVarint_append hread more) hlimit hwhole'
    rw [List.drop_append_of_le_length hwhole]
    exact ih

theorem not_failsOpen_nil : ¬ FailsOpen [] := by
  intro h
  cases h with
  | invalid hread => exact absurd hread (by decide)
  | oversized hread => exact absurd hread (by simp [readMinecraftVarint, readMinecraftVarintLoop])
  | frame hread => exact absurd hread (by simp [readMinecraftVarint, readMinecraftVarintLoop])

theorem FailsOpen.of_frame {frame : MinecraftFrame} {more : List UInt8}
    (h : FailsOpen (frame.bytes ++ more)) : FailsOpen more := by
  have hread := readMinecraftVarint_of_isVarint frame.isVarint frame.length_lengthPrefix_le
    (frame.body ++ more)
  rw [← List.append_assoc, ← MinecraftFrame.bytes] at hread
  cases h with
  | invalid hread' =>
    rw [hread] at hread'
    cases hread'
  | oversized hread' hlimit =>
    rw [hread] at hread'
    cases hread'
    exact absurd frame.length_body_le (Nat.not_le.mpr hlimit)
  | frame hread' hlimit hwhole hrest =>
    rw [hread] at hread'
    cases hread'
    rw [← List.length_append, ← MinecraftFrame.bytes, List.drop_left] at hrest
    exact hrest

theorem not_failsOpen_rest {rest : List UInt8} (h : IsRest rest) : ¬ FailsOpen rest := by
  intro hfails
  rcases h with rfl | ⟨frame, ⟨tail, htail⟩, _⟩
  · exact not_failsOpen_nil hfails
  · have hframe := hfails.append tail
    rw [htail, ← List.append_nil frame.bytes] at hframe
    exact not_failsOpen_nil hframe.of_frame

theorem not_failsOpen_stream (frames : List MinecraftFrame) {rest : List UInt8}
    (h : IsRest rest) : ¬ FailsOpen (streamOf frames ++ rest) := by
  induction frames with
  | nil => exact not_failsOpen_rest h
  | cons frame frames ih =>
    intro hfails
    have hcons : streamOf (frame :: frames) = frame.bytes ++ streamOf frames := by
      simp [streamOf]
    rw [hcons, List.append_assoc] at hfails
    exact ih hfails.of_frame

theorem filterBytes_stream (frames : List MinecraftFrame) {rest : List UInt8} (h : IsRest rest) :
    filterBytes (streamOf frames ++ rest) = (forwarded frames, rest) := by
  obtain ⟨stats, hdrain⟩ := drainLoop_frames
    { C2mSender.new 0 0 with minecraftFrameBuffer := streamOf frames ++ rest } h rfl
    { forwardedBytes := 0, droppedMovementFrames := 0, bufferedBytes := 0 }
  have hfilter := (drainLoop_filterBytes
    { C2mSender.new 0 0 with minecraftFrameBuffer := streamOf frames ++ rest }
    { forwardedBytes := 0, droppedMovementFrames := 0, bufferedBytes := 0 }).1
  rw [hdrain] at hfilter
  have hout := congrArg C2mSender.pendingTcp hfilter
  have hrest := congrArg C2mSender.minecraftFrameBuffer hfilter
  exact Prod.ext hout.symm hrest.symm

def forwardedBytes : C2mSender → List (List UInt8) → ℕ
  | _, [] => 0
  | sender, chunk :: chunks =>
    (sender.pushFilteredTcpBytes chunk).2.forwardedBytes +
      forwardedBytes (sender.pushFilteredTcpBytes chunk).1 chunks

theorem forwardedBytes_snoc (sender : C2mSender) (chunks : List (List UInt8))
    (chunk : List UInt8) :
    forwardedBytes sender (chunks ++ [chunk]) = forwardedBytes sender chunks +
      ((pushAll sender chunks).pushFilteredTcpBytes chunk).2.forwardedBytes := by
  induction chunks generalizing sender with
  | nil =>
    rw [List.nil_append, forwardedBytes, forwardedBytes, forwardedBytes, Nat.add_comm]
    rfl
  | cons first chunks ih =>
    rw [List.cons_append, forwardedBytes, forwardedBytes, ih, Nat.add_assoc]
    rfl

/-- However the bytes are cut, the calls do what one call on all of them does. -/
theorem pushAll_filterBytes {sender : C2mSender} (chunks : List (List UInt8))
    (hwaits : filterBytes sender.minecraftFrameBuffer = ([], sender.minecraftFrameBuffer))
    (hkeeps : ¬ FailsOpen (sender.minecraftFrameBuffer ++ chunks.flatten)) :
    pushAll sender chunks =
        { sender with
          pendingTcp := sender.pendingTcp ++
            (filterBytes (sender.minecraftFrameBuffer ++ chunks.flatten)).1
          minecraftFrameBuffer :=
            (filterBytes (sender.minecraftFrameBuffer ++ chunks.flatten)).2 } ∧
      forwardedBytes sender chunks =
        (filterBytes (sender.minecraftFrameBuffer ++ chunks.flatten)).1.length := by
  induction chunks using List.reverseRecOn with
  | nil =>
    rw [List.flatten_nil, List.append_nil, hwaits, List.append_nil]
    exact ⟨rfl, rfl⟩
  | append_singleton chunks chunk ih =>
    have hflatten : sender.minecraftFrameBuffer ++ (chunks ++ [chunk]).flatten =
        (sender.minecraftFrameBuffer ++ chunks.flatten) ++ chunk := by simp
    have hsnoc : pushAll sender (chunks ++ [chunk]) =
        ((pushAll sender chunks).pushFilteredTcpBytes chunk).1 := by
      rw [pushAll, List.foldl_append]
      rfl
    rw [hflatten] at hkeeps ⊢
    have hfirst : ¬ FailsOpen (sender.minecraftFrameBuffer ++ chunks.flatten) :=
      fun h => hkeeps (h.append chunk)
    obtain ⟨hpushed, hcount⟩ := ih hfirst
    rw [hsnoc, forwardedBytes_snoc, hcount, (pushFilteredTcpBytes_eq _ chunk).1,
      (pushFilteredTcpBytes_eq _ chunk).2, hpushed, filterBytes_append hfirst chunk]
    refine ⟨?_, ?_⟩
    · rw [List.append_assoc]
    · rw [List.length_append]

end StarrySky.Bridge
