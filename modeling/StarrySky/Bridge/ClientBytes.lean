import StarrySky.Bridge.C2mReads
import StarrySky.Bridge.LinkClient
import StarrySky.Bridge.SenderInvariant

/-! What the client loop has sent of the client's bytes, at any time of any run. -/

namespace StarrySky.Bridge
open StarrySky.Base

universe u
variable {α : Type u}

/-- The second list with each of its elements once or several times in a row. -/
inductive Repeats : List α → List α → Prop
  | nil : Repeats [] []
  | next {sent distinct : List α} (x : α) (h : Repeats sent distinct) :
      Repeats (sent ++ [x]) (distinct ++ [x])
  | again {sent distinct : List α} (x : α) (h : Repeats sent (distinct ++ [x])) :
      Repeats (sent ++ [x]) (distinct ++ [x])

def sentData (encoded : List UInt8) : Option (UInt16 × List UInt8) :=
  match Link.decodeOne encoded with
  | .ok frame => if frame.frameType = .dataC2m then some (frame.seq, frame.payload) else none
  | .error _ => none

def numbered (payloads : List (List UInt8)) : List (UInt16 × List UInt8) :=
  payloads.mapIdx fun i payload => (UInt16.ofNat i, payload)

/-- The pending bytes that are under way. -/
def C2mSender.inFlight (sender : C2mSender) : List UInt8 :=
  sender.outstanding.elim [] fun outstanding => sender.pendingTcp.take outstanding.payloadLen

/-- The bytes of the reads that pass the filter, and those that wait in its buffer. -/
def filtered (tcpIn : List (List UInt8)) : C2mSender := pushAll (.new 0 0) tcpIn

/-- A frame that is not complete. -/
abbrev minecraftBufferBound : ℕ := minecraftVarintMaxBytes + minecraftFrameLengthLimit

/-- The sender has put the filtered bytes on the line in order. Since the link reset it has sent
the `payloads`, numbered from zero; the last is under way or has arrived, the others have arrived,
and `before` had arrived when the link was reset. -/
structure StreamSent (run : SenderRun) (acked before : List UInt8)
    (tcpIn serialOut payloads : List (List UInt8)) : Prop where
  invariant : SenderInvariant run
  pushed : run.pushed = (filtered tcpIn).pendingTcp
  buffered : run.sender.minecraftFrameBuffer = (filtered tcpIn).minecraftFrameBuffer
  frames : Repeats (serialOut.filterMap sentData) (numbered payloads)
  count : payloads.length = run.sender.nextSeq.toNat
  carried : before ++ payloads.flatten = run.removed ++ run.sender.inFlight
  last : ∀ outstanding ∈ run.sender.outstanding,
    ∃ earlier, payloads = earlier ++ [run.sender.pendingTcp.take outstanding.payloadLen]
  sizes : ∀ payload ∈ payloads, 1 ≤ payload.length ∧ payload.length ≤ Link.firmwarePayloadCap
  buffer : run.sender.minecraftFrameBuffer.length ≤ minecraftBufferBound
  held : run.sender.pendingTcp.length + run.sender.minecraftFrameBuffer.length ≤
    tcpPendingLimit + minecraftBufferBound
  acked : run.removed = acked

def ClientStream (sender : C2mSender) (acked before : List UInt8)
    (tcpIn serialOut : List (List UInt8)) : Prop :=
  ∃ run payloads, run.sender = sender ∧ StreamSent run acked before tcpIn serialOut payloads

theorem numbered_concat (payloads : List (List UInt8)) (payload : List UInt8) :
    numbered (payloads ++ [payload]) =
      numbered payloads ++ [(UInt16.ofNat payloads.length, payload)] := List.mapIdx_concat

theorem width_le_of_complete {bytes : List UInt8} {value width : ℕ}
    (h : readMinecraftVarint bytes = .complete value width) :
    width ≤ minecraftVarintMaxBytes := by
  obtain ⟨encoding, _, _, _, hwidth, hmax⟩ := isVarint_of_readMinecraftVarint h
  exact hwidth ▸ hmax

theorem length_filterBytes (bytes : List UInt8) :
    (filterBytes bytes).1.length + (filterBytes bytes).2.length ≤ bytes.length ∧
      (filterBytes bytes).2.length ≤ minecraftBufferBound := by
  induction bytes using filterBytes.induct with
  | case1 bytes value width h hlimit =>
    rw [filterBytes_oversized h hlimit]
    exact ⟨Nat.le_refl _, Nat.zero_le _⟩
  | case2 bytes value width h hlimit hshort =>
    have hlength : bytes.length ≤ minecraftVarintMaxBytes + minecraftFrameLengthLimit :=
      (Nat.le_of_lt hshort).trans
        (Nat.add_le_add (width_le_of_complete h) (Nat.le_of_not_lt hlimit))
    rw [filterBytes, h]
    dsimp only
    rw [if_neg hlimit, if_pos hshort, List.length_nil, Nat.zero_add]
    exact ⟨Nat.le_refl _, hlength⟩
  | case3 bytes value width h hlimit hshort hforward ih =>
    rw [filterBytes_frame h (Nat.le_of_not_lt hlimit) (Nat.le_of_not_lt hshort), if_pos hforward]
    rw [List.length_drop] at ih
    refine ⟨?_, ih.2⟩
    dsimp only
    rw [List.length_append, List.length_take_of_le (Nat.le_of_not_lt hshort)]
    omega
  | case4 bytes value width h hlimit hshort hforward ih =>
    rw [filterBytes_frame h (Nat.le_of_not_lt hlimit) (Nat.le_of_not_lt hshort), if_neg hforward]
    rw [List.length_drop] at ih
    rw [List.nil_append]
    exact ⟨ih.1.trans (Nat.sub_le _ _), ih.2⟩
  | case5 bytes h =>
    rw [filterBytes, h]
    refine ⟨Nat.le_of_eq (Nat.zero_add _), ?_⟩
    unfold readMinecraftVarint at h
    split at h
    case h_1 => cases h
    case h_2 =>
      split_ifs at h with hshort
      exact Nat.le_add_right_of_le (Nat.le_of_lt hshort)
  | case6 bytes h =>
    rw [filterBytes_invalid h]
    exact ⟨Nat.le_refl _, Nat.zero_le _⟩

theorem filtered_concat (tcpIn : List (List UInt8)) (read : List UInt8) :
    filtered (tcpIn ++ [read]) = ((filtered tcpIn).pushFilteredTcpBytes read).1 := by
  rw [filtered, pushAll, List.foldl_append]
  rfl

variable {sender next : C2mSender} {acked before : List UInt8}
  {tcpIn serialOut : List (List UInt8)}

theorem clientStream_new (negotiatedPayload : ℕ) (credit : UInt16) :
    ClientStream (.new negotiatedPayload credit) [] [] [] [] :=
  ⟨.start negotiatedPayload credit, [], rfl, senderInvariant_start _ _, rfl, rfl, .nil, rfl, rfl,
    fun _ h => absurd h (Option.not_mem_none _), fun _ h => absurd h List.not_mem_nil,
    Nat.zero_le _, Nat.zero_le _, rfl⟩

theorem ClientStream.other (h : ClientStream sender acked before tcpIn serialOut) {encoded : List (List UInt8)}
    (hother : ∀ frame ∈ encoded, sentData frame = none) :
    ClientStream sender acked before tcpIn (serialOut ++ encoded) := by
  obtain ⟨run, payloads, hsender, h⟩ := h
  have hnone : encoded.filterMap sentData = [] := List.filterMap_eq_nil_iff.mpr hother
  refine ⟨run, payloads, hsender, { h with frames := ?_ }⟩
  rw [List.filterMap_append, hnone, List.append_nil]
  exact h.frames

theorem ClientStream.withCredit (h : ClientStream sender acked before tcpIn serialOut)
    (credit : UInt16) : ClientStream { sender with credit } acked before tcpIn serialOut := by
  obtain ⟨run, payloads, rfl, h⟩ := h
  refine ⟨{ run with sender := { run.sender with credit } }, payloads, rfl,
    ⟨h.invariant.conserved, ?_⟩, h.pushed, h.buffered, h.frames, h.count, h.carried, h.last,
    h.sizes, h.buffer, h.held, h.acked⟩
  intro outstanding houtstanding
  exact (h.invariant.outstanding outstanding houtstanding).append (List.append_nil _).symm rfl rfl
    rfl

theorem ClientStream.ack (h : ClientStream sender acked before tcpIn serialOut) {ack credit : UInt16}
    (hack : sender.handleAck ack credit = .ok next) :
    ClientStream next (acked ++ sender.ackedBytes ack) before tcpIn serialOut := by
  have hcredit := h.withCredit credit
  obtain ⟨run, payloads, rfl, h⟩ := h
  have hstep := (h.invariant.ack ack credit).1
  rw [senderStep, hack] at hstep
  rcases handleAck_cases h.invariant ack credit with
    ⟨hother, hcase⟩ | ⟨outstanding, houtstanding, hseq, hpending, hcase⟩
  · -- only the credit is taken over
    have hnone : run.sender.ackedBytes ack = [] := by
      unfold C2mSender.ackedBytes
      cases houtstanding : run.sender.outstanding with
      | none => rfl
      | some outstanding => exact if_neg (hother outstanding houtstanding)
    rw [hcase] at hack
    cases hack
    rw [hnone, List.append_nil]
    exact hcredit
  · rw [hcase] at hack
    cases hack
    have hleft : run.sender.pendingTcp.length -
        (run.sender.pendingTcp.drop outstanding.payloadLen).length = outstanding.payloadLen := by
      rw [List.length_drop, Nat.sub_sub_self hpending]
    dsimp only at hstep
    rw [hleft] at hstep
    have hcarried := h.carried
    rw [C2mSender.inFlight, houtstanding, Option.elim_some] at hcarried
    have hacked : run.sender.ackedBytes ack = run.sender.pendingTcp.take outstanding.payloadLen := by
      rw [C2mSender.ackedBytes, houtstanding]
      exact if_pos hseq
    refine ⟨_, payloads, rfl, hstep, h.pushed, h.buffered, h.frames, h.count, ?_,
      fun _ h => absurd h (Option.not_mem_none _), h.sizes, h.buffer, ?_, by rw [hacked, h.acked]⟩
    · rw [hcarried]
      exact (List.append_nil _).symm
    · have hheld := h.held
      dsimp only
      rw [List.length_drop]
      omega

theorem inFlight_append {run : SenderRun}
    (hvalid : ∀ outstanding ∈ run.sender.outstanding, OutstandingValid run outstanding)
    (more buffer : List UInt8) :
    { run.sender with
      pendingTcp := run.sender.pendingTcp ++ more, minecraftFrameBuffer := buffer }.inFlight =
        run.sender.inFlight := by
  unfold C2mSender.inFlight
  cases houtstanding : run.sender.outstanding with
  | none => rfl
  | some outstanding =>
    rw [Option.elim_some, Option.elim_some,
      List.take_append_of_le_length (hvalid outstanding houtstanding).pending]

theorem ClientStream.push (h : ClientStream sender acked before tcpIn serialOut) {read : List UInt8}
    (hspace : sender.pendingTcp.length + read.length ≤ tcpPendingLimit) :
    ClientStream (sender.pushFilteredTcpBytes read).1 acked before (tcpIn ++ [read]) serialOut := by
  obtain ⟨run, payloads, rfl, h⟩ := h
  have hstep := (h.invariant.step (.pushFiltered read)).1
  have hfiltered := (pushFilteredTcpBytes_eq (filtered tcpIn) read).1
  have hpush := (pushFilteredTcpBytes_eq run.sender read).1
  have hvalid := h.invariant.outstanding
  obtain ⟨hmakes, hkeeps⟩ := length_filterBytes (run.sender.minecraftFrameBuffer ++ read)
  rw [← h.buffered] at hfiltered
  rw [senderStep, hpush] at hstep
  dsimp only at hstep
  rw [List.drop_left] at hstep
  rw [hpush]
  refine ⟨_, payloads, rfl, hstep, ?_, ?_, h.frames, h.count, ?_, ?_, h.sizes, hkeeps, ?_,
    h.acked⟩
  · rw [filtered_concat, hfiltered, h.pushed]
  · rw [filtered_concat, hfiltered]
  · rw [h.carried]
    exact congrArg _ (inFlight_append hvalid _ _).symm
  · intro outstanding houtstanding
    obtain ⟨earlier, hearlier⟩ := h.last outstanding houtstanding
    refine ⟨earlier, hearlier.trans ?_⟩
    rw [List.take_append_of_le_length (hvalid outstanding houtstanding).pending]
  · have hbuffer := h.buffer
    rw [List.length_append] at hmakes
    dsimp only
    rw [List.length_append]
    omega

theorem sentData_dataC2mBytes (sender : C2mSender) {n : ℕ} (hmax : n ≤ Link.maxPayload) :
    sentData (dataC2mBytes sender n) = some (sender.nextSeq, sender.pendingTcp.take n) := by
  rw [sentData, dataC2mBytes,
    Link.decodeOne_mcLinkFrameBytes ((List.length_take_le _ _).trans hmax)]
  rfl

theorem ClientStream.sent (h : ClientStream sender acked before tcpIn serialOut) {n : ℕ}
    (hlen : sender.nextPayloadLen = some n) (hseq : sender.nextSeq ≠ 0xffff) (now : ℕ) :
    ClientStream (sender.sent n now) acked before tcpIn (serialOut ++ [dataC2mBytes sender n]) := by
  obtain ⟨run, payloads, rfl, h⟩ := h
  obtain ⟨hnone, hpos, hpending, _, _, hmax⟩ := nextPayloadLen_eq_some hlen
  have htake : (run.sender.pendingTcp.take n).length = n := List.length_take_of_le hpending
  have hlast : run.sender.nextSeq.toNat + 1 < 2 ^ 16 := by
    have hne : run.sender.nextSeq.toNat ≠ 65535 := fun heq => hseq (UInt16.toNat.inj heq)
    have hlt := run.sender.nextSeq.toNat_lt
    omega
  have hsend : sendNextFrame run.sender now =
      .ok (some (dataC2mBytes run.sender n), run.sender.sent n now) := by
    rcases sendNextFrame_cases run.sender now with
      ⟨hidle, _⟩ | ⟨_, hused, _⟩ | ⟨m, hm, _, hsend⟩
    · rw [hidle] at hlen
      cases hlen
    · exact absurd hused hseq
    · rw [hm] at hlen
      rw [← Option.some.inj hlen, hsend]
  have hstep := (h.invariant.send now).1
  rw [senderStep, hsend] at hstep
  have hcarried := h.carried
  rw [C2mSender.inFlight, hnone, Option.elim_none, List.append_nil] at hcarried
  refine ⟨_, payloads ++ [run.sender.pendingTcp.take n], rfl, hstep, h.pushed, h.buffered, ?_, ?_,
    ?_, ?_, ?_, h.buffer, h.held, h.acked⟩
  · have hdata : [dataC2mBytes run.sender n].filterMap sentData =
        [(run.sender.nextSeq, run.sender.pendingTcp.take n)] := by
      rw [List.filterMap_cons_some (sentData_dataC2mBytes run.sender hmax), List.filterMap_nil]
    rw [List.filterMap_append, hdata, numbered_concat, h.count, UInt16.ofNat_toNat]
    exact .next _ h.frames
  · show (payloads ++ [run.sender.pendingTcp.take n]).length = (run.sender.nextSeq + 1).toNat
    rw [List.length_append, h.count, UInt16.toNat_add, List.length_singleton]
    exact (Nat.mod_eq_of_lt hlast).symm
  · rw [List.flatten_append, List.flatten_singleton, ← List.append_assoc, hcarried]
    rfl
  · intro outstanding houtstanding
    exact ⟨payloads, by rw [← Option.some.inj houtstanding]; rfl⟩
  · intro payload hmem
    rcases List.mem_append.mp hmem with hmem | hmem
    · exact h.sizes payload hmem
    · rw [List.mem_singleton.mp hmem, htake]
      exact ⟨hpos, hmax⟩

theorem ClientStream.retransmitted (h : ClientStream sender acked before tcpIn serialOut) {now timeout : ℕ}
    {encoded : List UInt8} (hdue : sender.retransmitIfDue now timeout = some encoded)
    (writtenAt : ℕ) :
    ClientStream (sender.markRetransmitted writtenAt) acked before tcpIn
      (serialOut ++ [encoded]) := by
  obtain ⟨run, payloads, rfl, h⟩ := h
  have hstep := (h.invariant.step (.markRetransmitted writtenAt)).1
  cases houtstanding : run.sender.outstanding with
  | none =>
    rw [C2mSender.retransmitIfDue, houtstanding] at hdue
    cases hdue
  | some outstanding =>
    have hvalid := h.invariant.outstanding outstanding houtstanding
    obtain ⟨earlier, hearlier⟩ := h.last outstanding houtstanding
    have hencoded : outstanding.encoded = encoded := by
      rw [C2mSender.retransmitIfDue, houtstanding] at hdue
      dsimp only at hdue
      split_ifs at hdue
      exact Option.some.inj hdue
    have hmarked : run.sender.markRetransmitted writtenAt = { run.sender with
        outstanding := some { outstanding with
          sentAt := writtenAt
          retries := if outstanding.retries = 0xff then 0xff else outstanding.retries + 1 } } := by
      rw [C2mSender.markRetransmitted, houtstanding]
    rw [senderStep, hmarked] at hstep
    rw [hmarked]
    have hcount := h.count
    rw [hearlier, List.length_append, List.length_singleton] at hcount
    have hnext : run.sender.nextSeq = UInt16.ofNat earlier.length + 1 := by
      have hnat := congrArg UInt16.ofNat hcount
      rw [UInt16.ofNat_toNat, UInt16.ofNat_add] at hnat
      exact hnat.symm
    have hnumber : UInt16.ofNat earlier.length = run.sender.nextSeq - 1 := by
      rw [hnext, UInt16.add_sub_cancel]
    have hcarried := h.carried
    rw [C2mSender.inFlight, houtstanding, Option.elim_some] at hcarried
    refine ⟨_, payloads, rfl, hstep, h.pushed, h.buffered, ?_, h.count, hcarried, ?_, h.sizes,
      h.buffer, h.held, h.acked⟩
    · have hdata : [encoded].filterMap sentData =
          [(run.sender.nextSeq - 1, run.sender.pendingTcp.take outstanding.payloadLen)] := by
        rw [← hencoded, List.filterMap_cons_some (by rw [sentData, hvalid.decodes]; rfl),
          List.filterMap_nil]
      have hframes := h.frames
      rw [hearlier, numbered_concat, hnumber] at hframes
      rw [List.filterMap_append, hdata, hearlier, numbered_concat, hnumber]
      exact .again _ hframes
    · intro o ho
      exact ⟨earlier, by rw [hearlier, ← Option.some.inj ho]⟩

theorem ClientStream.reset (h : ClientStream sender acked before tcpIn serialOut) (negotiatedPayload : ℕ)
    (credit : UInt16) :
    ClientStream (sender.resetLinkStatePreservingPending negotiatedPayload credit) acked acked
      tcpIn [] := by
  obtain ⟨run, payloads, rfl, h⟩ := h
  have hstep := (h.invariant.step (.reset negotiatedPayload credit)).1
  refine ⟨_, [], rfl, hstep, h.pushed, h.buffered, .nil, rfl, ?_,
    fun _ h => absurd h (Option.not_mem_none _), fun _ h => absurd h List.not_mem_nil, h.buffer,
    h.held, h.acked⟩
  exact congrArg (· ++ []) h.acked.symm

/-! Every call of the loop keeps it. -/

def LinkClient.Streams (client : LinkClient) (before : List UInt8) (tcpIn : List (List UInt8)) :
    Prop :=
  ClientStream client.c2mSender client.acked before tcpIn client.serialOut

def LinkLoop.Streams (loop : LinkLoop) : Prop := loop.client.Streams loop.ackedBefore loop.tcpIn

theorem sentData_of_ne {payload : List UInt8} {frameType : Link.FrameType} {encoded : List UInt8}
    {seq ack : UInt16} (h : Link.encode frameType seq ack payload = some encoded)
    (htype : frameType.toU8 ≠ Link.FrameType.dataC2m.toU8) : sentData encoded = none := by
  obtain ⟨hlen, rfl⟩ := Link.encode_eq_some h
  have hother : Link.FrameType.fromU8 frameType.toU8 ≠ .dataC2m := by
    intro heq
    rw [← heq, Link.FrameType.toU8_fromU8] at htype
    exact htype rfl
  rw [sentData, Link.decodeOne_mcLinkFrameBytes hlen]
  exact if_neg hother

theorem sentData_encodeFrame {payload : List UInt8} {frameType : Link.FrameType}
    {encoded : List UInt8} {seq : UInt16} (h : encodeFrame frameType seq payload = .ok encoded)
    (htype : frameType.toU8 ≠ Link.FrameType.dataC2m.toU8) : sentData encoded = none := by
  unfold encodeFrame at h
  split at h
  case h_1 bytes hbytes =>
    cases h
    exact sentData_of_ne hbytes htype
  case h_2 => cases h

theorem handleAckC2mWithRate_sender {rateController : RateController} {frame : Link.Frame}
    {acked : C2mSender × RateController}
    (h : handleAckC2mWithRate sender rateController frame = .ok acked) :
    ∃ credit, sender.handleAck frame.ack credit = .ok acked.1 := by
  unfold handleAckC2mWithRate handleAckC2m at h
  split at h
  case h_1 => cases h
  case h_2 next hnext =>
    cases h
    split at hnext
    case h_1 => cases hnext
    case h_2 credit _ => exact ⟨credit, hnext⟩

theorem ClientStream.afterFailedAck (h : ClientStream sender acked before tcpIn serialOut)
    (frame : Link.Frame) :
    ClientStream (sender.afterFailedAck frame) acked before tcpIn serialOut := by
  unfold C2mSender.afterFailedAck
  split
  · exact h
  · exact h.withCredit _

variable (ports : ClientPorts) (retransmitTimeout : ℕ) {client : LinkClient}

theorem LinkClient.Streams.sendLinkReset (h : client.Streams before tcpIn) :
    client.sendLinkReset.Streams before tcpIn := by
  apply ClientStream.other h
  intro frame hframe
  exact sentData_of_ne (Option.mem_toList.mp hframe) (by decide)

theorem LinkClient.Streams.handleSerialFrame (h : client.Streams before tcpIn)
    (frame : Link.Frame) : (handleSerialFrame ports client frame).2.Streams before tcpIn := by
  unfold Bridge.handleSerialFrame
  split
  · split
    · exact h
    · dsimp only
      split
      · exact LinkClient.Streams.sendLinkReset h
      · exact h
  · split
    · exact ClientStream.afterFailedAck h frame
    · next sender rateController hacked =>
      obtain ⟨credit, hack⟩ := handleAckC2mWithRate_sender hacked
      exact ClientStream.ack h hack
  · split
    · exact h
    · exact h
  · exact h
  · split
    · exact h
    · next pong hpong =>
      have hother : { client with serialOut := client.serialOut ++ [pong] }.Streams before tcpIn :=
        ClientStream.other h fun frame hframe =>
          List.mem_singleton.mp hframe ▸ sentData_encodeFrame hpong (by decide)
      dsimp only
      split
      · exact hother
      · exact hother
  · exact h

theorem LinkClient.Streams.handleDecodeEvents (h : client.Streams before tcpIn)
    (events : List Link.DecodeEvent) :
    (handleDecodeEvents ports client events).2.Streams before tcpIn := by
  induction events generalizing client with
  | nil => exact h
  | cons event events ih =>
    rw [Bridge.handleDecodeEvents]
    split
    · exact h
    · next frame hframe =>
      have hnext := h.handleSerialFrame ports frame
      split
      · next next hhandled =>
        rw [hhandled] at hnext
        exact ih hnext
      · exact hnext

theorem LinkClient.Streams.drainLoop (h : client.Streams before tcpIn)
    (eventsProcessed bytesProcessed : ℕ) (events : List SerialRxEvent) :
    (drainLoop ports eventsProcessed bytesProcessed client events).2.1.Streams before tcpIn := by
  induction events generalizing client eventsProcessed bytesProcessed with
  | nil => exact h
  | cons event events ih =>
    cases event with
    | error error => exact h
    | bytes bytes =>
      have hfed : { client with decoder := (client.decoder.feed bytes).1 }.Streams before tcpIn := h
      have hnext : (handleSerialRxBytes ports client bytes).2.Streams before tcpIn :=
        hfed.handleDecodeEvents ports _
      rw [Bridge.drainLoop]
      split
      · next next hhandled =>
        rw [hhandled] at hnext
        split_ifs
        · exact hnext
        · exact ih hnext _ _
      · next stopped next _ hhandled =>
        rw [hhandled] at hnext
        exact hnext

variable {loop : LinkLoop}

theorem LinkLoop.Streams.sendLinkReset (h : loop.Streams) : loop.sendLinkReset.Streams :=
  LinkClient.Streams.sendLinkReset h

theorem LinkLoop.Streams.resetWithRxWorker (h : loop.Streams) {next : SenderReset}
    (hnext : ∀ ready, ClientStream (next.sender ready) next.acked next.acked next.tcpIn [])
    (input : ResetInput) : (loop.resetWithRxWorker next input).2.Streams := by
  unfold LinkLoop.resetWithRxWorker
  dsimp only
  split
  · exact h
  · split
    · exact h
    · split
      · exact hnext _
      · exact hnext _

theorem LinkLoop.Streams.resetFresh (h : loop.Streams) (input : ResetInput) :
    (resetLinkSessionStateWithRxWorker loop input).2.Streams :=
  h.resetWithRxWorker (fun _ => clientStream_new _ _) input

theorem LinkLoop.Streams.resetPreserving (h : loop.Streams) (input : ResetInput) :
    (resetLinkSessionStatePreservingPendingWithRxWorker loop input).2.Streams :=
  h.resetWithRxWorker (fun _ => ClientStream.reset h _ _) input

theorem LinkLoop.Streams.readTcp (h : loop.Streams) (tcpRead : TcpRead) :
    (readTcp loop tcpRead).2.Streams := by
  unfold Bridge.readTcp
  dsimp only
  split_ifs with hspace
  · cases tcpRead with
    | ok bytes =>
      dsimp only
      split_ifs with hend
      · exact h.sendLinkReset
      · apply ClientStream.push h
        rw [List.length_take]
        omega
    | waits => exact h
    | error error => exact h.sendLinkReset
  · exact h

theorem nextFrameToSend_cases (sender : C2mSender) :
    sender.nextFrameToSend = .ok none ∨ sender.nextFrameToSend = .error sequenceExhausted ∨
    ∃ n frame, sender.nextPayloadLen = some n ∧ sender.nextSeq ≠ 0xffff ∧
      sender.nextFrameToSend = .ok (some frame) ∧
      encodeDataC2mFrame frame = .ok (dataC2mBytes sender n) ∧
      ∀ now, sender.markSent frame now = .ok (sender.sent n now) := by
  cases hlen : sender.nextPayloadLen with
  | none =>
    left
    rw [C2mSender.nextFrameToSend, hlen]
  | some n =>
    right
    by_cases hseq : sender.nextSeq = 0xffff
    · left
      rw [C2mSender.nextFrameToSend, hlen]
      exact if_pos hseq
    · right
      obtain ⟨_, _, hpending, _, _, hmax⟩ := nextPayloadLen_eq_some hlen
      have htake : (sender.pendingTcp.take n).length = n := List.length_take_of_le hpending
      have hencode : encodeDataC2mFrame
          { frameType := .dataC2m, flags := 0, seq := sender.nextSeq, ack := 0
            payload := sender.pendingTcp.take n } = .ok (dataC2mBytes sender n) := by
        rw [encodeDataC2mFrame, Link.encode_eq rfl (htake.le.trans hmax)]
        rfl
      refine ⟨n, _, rfl, hseq, ?_, hencode, ?_⟩
      · rw [C2mSender.nextFrameToSend, hlen]
        exact if_neg hseq
      · intro now
        rw [C2mSender.markSent, hlen]
        dsimp only
        rw [if_neg (by rw [htake]; simp), hencode]
        rfl

theorem LinkLoop.Streams.sendNext (h : loop.Streams) (turn : ClientTurn) :
    (sendNext loop turn).2.Streams := by
  rcases nextFrameToSend_cases loop.client.c2mSender with
    hnext | hnext | ⟨n, frame, hlen, hseq, hnext, hencode, hmark⟩
  · rw [Bridge.sendNext, hnext]
    exact h
  · have hreset := h.resetPreserving turn.reset
    rw [Bridge.sendNext, hnext]
    dsimp only
    split_ifs
    · split
      · next hcase =>
        rw [hcase] at hreset
        exact hreset
      · next hcase =>
        rw [hcase] at hreset
        exact hreset
    · exact h
  · rw [Bridge.sendNext, hnext]
    dsimp only
    rw [hencode]
    dsimp only
    split
    · exact h.sendLinkReset
    · rw [hmark]
      exact ClientStream.sent h hlen hseq turn.sentAt

theorem LinkLoop.Streams.sendTurn (h : loop.Streams) (turn : ClientTurn) :
    (sendTurn retransmitTimeout loop turn).2.Streams := by
  rw [Bridge.sendTurn, handleRetransmitTimeout]
  cases hdue : loop.client.c2mSender.retransmitIfDue turn.timeout.now retransmitTimeout with
  | none => exact LinkLoop.Streams.sendNext h turn
  | some encoded =>
    have hlost : { loop with client := { loop.client with
        rateController := loop.client.rateController.recordLoss } }.Streams := h
    have hreset := hlost.resetPreserving turn.reset
    dsimp only
    by_cases hrecalibrate : loop.client.rateController.recordLoss.needsRecalibration = true
    · rw [if_pos hrecalibrate]
      dsimp only
      split
      · next hcase =>
        rw [hcase] at hreset
        exact hreset.sendLinkReset
      · next hcase =>
        rw [hcase] at hreset
        exact hreset
    · rw [if_neg hrecalibrate]
      cases turn.timeout.write encoded
          loop.client.rateController.recordLoss.activeProfile with
      | error error => exact hlost.sendLinkReset
      | ok written => exact ClientStream.retransmitted h hdue turn.timeout.writtenAt

theorem LinkLoop.Streams.clientTurn (h : loop.Streams) (turn : ClientTurn) :
    (clientTurn ports retransmitTimeout loop turn).2.Streams := by
  have hdrained := LinkClient.Streams.drainLoop ports h 0 0 (loop.queue ++ turn.arrivals)
  rw [Bridge.clientTurn]
  split
  next drained client queue hdrain =>
    rw [Bridge.drainSerialRxEvents] at hdrain
    rw [hdrain] at hdrained
    have hnext : { loop with client, queue }.Streams := hdrained
    cases drained with
    | error error => exact hnext
    | ok drain =>
      cases drain with
      | reset =>
        have hreset := hnext.resetFresh turn.reset
        dsimp only
        split
        · next hcase =>
          rw [hcase] at hreset
          exact hreset
        · next hcase =>
          rw [hcase] at hreset
          exact hreset
      | «continue» =>
        have hread := hnext.readTcp turn.tcpRead
        dsimp only
        split
        · next hcase =>
          rw [hcase] at hread
          exact hread
        · next hcase =>
          rw [hcase] at hread
          exact hread.sendTurn retransmitTimeout turn

theorem LinkLoop.Streams.clientLoop (h : loop.Streams) (turns : List ClientTurn) :
    (clientLoop ports retransmitTimeout loop turns).2.Streams := by
  induction turns generalizing loop with
  | nil => exact h
  | cons turn turns ih =>
    have hturn := h.clientTurn ports retransmitTimeout turn
    rw [Bridge.clientLoop]
    split
    · next hcase =>
      rw [hcase] at hturn
      exact ih hturn
    · exact hturn

def C2mSender.underWay (sender : C2mSender) : List (List UInt8) :=
  sender.outstanding.toList.map fun outstanding => sender.pendingTcp.take outstanding.payloadLen

/-- How the bytes read from a client and the frames given to the serial port agree. The bytes that
passed the filter are those the acknowledgements took and those pending. Since the link reset the
`payloads` have been sent, numbered from zero and each perhaps several times in a row; they go on in
these bytes where the acknowledgements had come to when the link was reset, and all of them but the
one under way have been acknowledged. -/
structure StreamKept (loop : LinkLoop) (payloads : List (List UInt8)) : Prop where
  conserved : loop.client.acked ++ loop.client.c2mSender.pendingTcp =
    (filtered loop.tcpIn).pendingTcp
  frames : Repeats (loop.client.serialOut.filterMap sentData) (numbered payloads)
  numbers : payloads.length < 2 ^ 16
  carried : loop.ackedBefore ++ payloads.flatten <+: (filtered loop.tcpIn).pendingTcp
  acknowledged : ∃ earlier, payloads = earlier ++ loop.client.c2mSender.underWay ∧
    loop.client.acked = loop.ackedBefore ++ earlier.flatten
  sizes : ∀ payload ∈ payloads, 1 ≤ payload.length ∧ payload.length ≤ Link.firmwarePayloadCap
  held : loop.client.c2mSender.pendingTcp.length +
      loop.client.c2mSender.minecraftFrameBuffer.length ≤
    tcpPendingLimit + minecraftBufferBound

theorem StreamSent.acknowledged {run : SenderRun} {payloads : List (List UInt8)}
    (h : StreamSent run acked before tcpIn serialOut payloads) :
    ∃ earlier, payloads = earlier ++ run.sender.underWay ∧ acked = before ++ earlier.flatten := by
  have hcarried := h.carried
  rw [h.acked] at hcarried
  unfold C2mSender.inFlight at hcarried
  unfold C2mSender.underWay
  cases houtstanding : run.sender.outstanding with
  | none =>
    rw [houtstanding, Option.elim_none, List.append_nil] at hcarried
    exact ⟨payloads, (List.append_nil _).symm, hcarried.symm⟩
  | some outstanding =>
    obtain ⟨earlier, hearlier⟩ := h.last outstanding houtstanding
    rw [houtstanding, Option.elim_some, hearlier, List.flatten_append, List.flatten_singleton,
      ← List.append_assoc, List.append_left_inj] at hcarried
    exact ⟨earlier, hearlier, hcarried.symm⟩

theorem LinkLoop.Streams.kept (h : loop.Streams) : ∃ payloads, StreamKept loop payloads := by
  obtain ⟨run, payloads, hsender, hsent⟩ := h
  have hconserved : loop.client.acked ++ loop.client.c2mSender.pendingTcp =
      (filtered loop.tcpIn).pendingTcp := by
    rw [← hsender, ← hsent.acked, hsent.invariant.conserved, hsent.pushed]
  refine ⟨payloads, hconserved, hsent.frames, ?_, ?_, ?_, hsent.sizes, ?_⟩
  · rw [hsent.count]
    exact run.sender.nextSeq.toNat_lt
  · rw [hsent.carried, hsent.acked, hsender, ← hconserved, List.prefix_append_right_inj]
    unfold C2mSender.inFlight
    cases loop.client.c2mSender.outstanding with
    | none => exact List.nil_prefix
    | some outstanding => exact List.take_prefix _ _
  · rw [← hsender]
    exact hsent.acknowledged
  · rw [← hsender]
    exact hsent.held

/-- Whatever the socket, the serial port and the clock do, in whatever turn: the bytes that pass the
filter go out in order, once but for repeats of the frame under way, over any number of link resets
that keep the sender; and the bytes held for the client are bounded. -/
theorem runLinkClient_stream (ports : ClientPorts) (retransmitTimeout : ℕ)
    (configured : Except IoError Unit) (resetSeq : UInt16) (reset : ResetInput)
    (turns : List ClientTurn) (loop : LinkLoop)
    (h : loop ∈ (runLinkClient ports retransmitTimeout configured resetSeq reset turns).2) :
    ∃ payloads, StreamKept loop payloads := by
  apply LinkLoop.Streams.kept
  unfold runLinkClient at h
  split at h
  case h_1 => cases h
  case h_2 =>
    split at h
    case h_1 => cases h
    case h_2 ready _ =>
      split at h
      case h_1 => cases h
      case h_2 rateController _ =>
        split at h
        case h_1 => cases h
        case h_2 =>
          rw [← Option.some.inj h]
          have hstart : (LinkLoop.start ready rateController
            (nextAfterResetSeq resetSeq)).Streams := clientStream_new _ _
          exact hstart.clientLoop ports retransmitTimeout turns

def answeredReset (resetSeq : UInt16) : ResetInput where
  written := .ok ()
  reads := [(Link.encode .resetAck resetSeq 0 []).getD [],
    (Link.encode .ready 0 0 (leBytes 497 ++ leBytes 8192 ++ leBytes 8192 ++ leBytes 0x3ff ++ [0] ++
      leBytes 0)).getD []]
  probe := fun _ _ => .ok true
  spawned := .ok ()

/-- A turn at a time, with writes that go through. -/
def turnAt (now : ℕ) (arrivals : List SerialRxEvent) (tcpRead : TcpRead) : ClientTurn where
  arrivals
  tcpRead
  timeout := { now, writtenAt := now, write := fun _ _ => .ok () }
  write := fun _ _ => .ok ()
  sentAt := now
  reset := answeredReset 2

/-- Three bytes whose frame is lost until the sixth timeout resets the link, their acknowledgement
after it, and three more bytes. -/
def lostFrameTurns : List ClientTurn :=
  [turnAt 0 [] (.ok [0x02, 0x01, 0x02]), turnAt 1000 [] .waits, turnAt 2000 [] .waits,
    turnAt 3000 [] .waits, turnAt 4000 [] .waits, turnAt 5000 [] .waits, turnAt 6000 [] .waits,
    turnAt 6100 [] .waits,
    turnAt 6200 [.bytes ((Link.encode .ackC2m 0 1 (leBytes 8192)).getD [])]
      (.ok [0x02, 0x01, 0x03])]

def lostFramePorts : ClientPorts where
  writeAll := fun _ _ => none
  writeFrame := fun _ _ => .ok ()

theorem loop_lostFrame :
    (runLinkClient lostFramePorts 1000 (.ok ()) 1 (answeredReset 1) lostFrameTurns).2.map
        (fun loop => (loop.client.serialOut.filterMap sentData, loop.client.nextResetSeq,
          loop.ackedBefore, loop.client.acked)) =
      some ([(0, [0x02, 0x01, 0x02]), (1, [0x02, 0x01, 0x03])], 3, [], [0x02, 0x01, 0x02]) := by
  decide +kernel

theorem runLinkClient_stream_lostFrame :
    ∃ loop ∈ (runLinkClient lostFramePorts 1000 (.ok ()) 1 (answeredReset 1) lostFrameTurns).2,
      loop.client.nextResetSeq = 3 ∧ loop.client.acked = [0x02, 0x01, 0x02] ∧
      ∃ payloads, StreamKept loop payloads := by
  obtain ⟨loop, hloop, hlast⟩ := Option.map_eq_some_iff.mp loop_lostFrame
  simp only [Prod.mk.injEq] at hlast
  exact ⟨loop, hloop, hlast.2.1, hlast.2.2.2,
    runLinkClient_stream lostFramePorts 1000 (.ok ()) 1 (answeredReset 1) lostFrameTurns loop
      hloop⟩

end StarrySky.Bridge
