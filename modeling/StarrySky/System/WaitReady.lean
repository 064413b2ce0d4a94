import StarrySky.Bridge.WaitReady
import StarrySky.System.RateEcho

/-! The bridge's wait at the start over the firmware's line: what it returns is what the firmware
granted at some time, and no READY of the firmware is passed over. -/

namespace StarrySky.System
open StarrySky.Base StarrySky.Link StarrySky.Firmware StarrySky.Bridge

/-- What the bridge makes of a READY with these parameters. -/
def Capabilities.readyState (granted : Capabilities) : ReadyState where
  negotiatedPayload := granted.payload.toNat
  initialCredit := granted.credit
  supportedRateMask := granted.rateMask

theorem exists_readyState (rx : Ringbuf UInt8) (events : List LinkEvent) :
    ∀ bytes ∈ (eventRun (mcLinkSessionInit rx) events).history.queuedControl,
      ∀ frame, Bridge.Link.decodeOne bytes = .ok frame → frame.frameType = .ready →
        ∃ n ≤ events.length, readyFrame frame =
          some (capabilities (eventRun (mcLinkSessionInit rx) (events.take n))).readyState := by
  induction events using List.reverseRecOn with
  | nil => exact fun _ hmem => absurd hmem List.not_mem_nil
  | append_singleton events event ih =>
    intro bytes hmem frame hdecode htype
    obtain ⟨queued, hqueued, hready⟩ :=
      readyAgrees_eventStep (eventRun_invariant rx events).1 event
    rw [eventRun_concat, hqueued] at hmem
    rcases List.mem_append.mp hmem with hearlier | hnew
    -- a READY queued before this event keeps the time that it had
    · obtain ⟨n, hn, hframe⟩ := ih bytes hearlier frame hdecode htype
      refine ⟨n, ?_, ?_⟩
      · rw [List.length_append]
        exact hn.trans (Nat.le_add_right _ _)
      · rw [hframe, List.take_append_of_le_length hn]
    · obtain ⟨decoded, hdecoded, hagrees⟩ := hready bytes hnew
      obtain rfl : decoded = frame := Except.ok.inj (hdecoded.symm.trans hdecode)
      refine ⟨(events ++ [event]).length, le_rfl, ?_⟩
      rw [List.take_length, eventRun_concat, readyFrame, if_pos htype]
      exact hagrees htype

theorem exists_queued_of_ready {s : LinkSession} {m : TxMux} (h : TxRel s m) {frame : McLinkFrame}
    (hmem : frame ∈ linkFrames m.output) (htype : frame.type = mcLinkReady) :
    ∃ bytes ∈ s.history.queuedControl,
      Bridge.Link.decodeOne bytes = .ok (Bridge.Link.Frame.ofMcLinkFrame frame) := by
  rw [linkFrames_output h] at hmem
  obtain ⟨bytes, hbytes, hframe⟩ := List.mem_flatMap.mp hmem
  obtain ⟨⟨q, bytes⟩, hsent, rfl⟩ := List.mem_map.mp hbytes
  have htx : TxFrame q bytes := h.sound.sent _ hsent
  cases q with
  | data =>
    -- the data queue sends no READY
    obtain ⟨seq, ack, payload, hencode⟩ := htx
    obtain ⟨hlen, rfl⟩ := mcLinkEncode_eq_some hencode
    rw [linkFrames_mcLinkFrameBytes hlen, List.mem_singleton] at hframe
    rw [hframe] at htype
    have hother : mcLinkDataM2c ≠ mcLinkReady := by decide
    exact absurd htype hother
  | control =>
    obtain ⟨type, seq, ack, payload, _, hencode⟩ := htx
    obtain ⟨hlen, rfl⟩ := mcLinkEncode_eq_some hencode
    rw [linkFrames_mcLinkFrameBytes hlen, List.mem_singleton] at hframe
    refine ⟨mcLinkFrameBytes type seq ack payload, ?_, ?_⟩
    · apply (h.sentFrom_sublist .control).subset
      exact List.mem_map.mpr ⟨_, List.mem_filter.mpr ⟨hsent, by simp⟩, rfl⟩
    · rw [Bridge.Link.decodeOne_mcLinkFrameBytes hlen, hframe]
      rfl

/-- Every READY on the firmware's line is one that the bridge accepts. -/
theorem readyFrame_of_mem {rx : Ringbuf UInt8} {events : List LinkEvent} {frame : McLinkFrame}
    (hmem : frame ∈ linkFrames (eventsOutput (mcLinkSessionInit rx) events))
    (htype : frame.type = mcLinkReady) :
    ∃ n ≤ events.length, readyFrame (Bridge.Link.Frame.ofMcLinkFrame frame) =
      some (capabilities (eventRun (mcLinkSessionInit rx) (events.take n))).readyState := by
  obtain ⟨m, hm, houtput⟩ := txRel_eventRun (txRel_init rx) events
  have hout : m.output = eventsOutput (mcLinkSessionInit rx) events := houtput
  rw [← hout] at hmem
  obtain ⟨bytes, hbytes, hdecode⟩ := exists_queued_of_ready hm hmem htype
  refine exists_readyState rx events bytes hbytes _ hdecode ?_
  show Bridge.Link.FrameType.fromU8 frame.type = .ready
  rw [htype]
  rfl

theorem findSome?_readyEvent (bytes : List UInt8) :
    (Bridge.Link.Decoder.new.feed bytes).2.findSome? readyEvent =
      (linkFrames bytes).findSome? fun frame =>
        readyFrame (Bridge.Link.Frame.ofMcLinkFrame frame) := by
  have hnew : DecoderHolds Bridge.Link.Decoder.new [] := .buffered rfl rfl (by decide)
  have hframes := (feed_spec bytes hnew List.not_mem_nil).1
  rw [List.nil_append] at hframes
  have hevents : ∀ events : List Bridge.Link.DecodeEvent, events.findSome? readyEvent =
      (events.filterMap DecodeEvent.frame?).findSome? readyFrame := by
    intro events
    induction events with
    | nil => rfl
    | cons event events ih =>
      cases event with
      | error error =>
        rw [List.filterMap_cons_none (by rfl), ← ih]
        rfl
      | frame frame =>
        rw [List.filterMap_cons_some (by rfl), List.findSome?_cons, List.findSome?_cons, ih]
        rfl
  rw [hevents, hframes, List.findSome?_map]
  rfl

/-- On a line that brings the bridge what the firmware sends, the parameters that the wait returns
are those that the firmware had granted to its last HELLO at some time; and a wait that goes on or
fails has read no READY. -/
theorem waitForReady_granted {rx : Ringbuf UInt8} {events : List LinkEvent} {turns : List WaitTurn}
    (hwire : (waitForReady turns).2.bytes <+: eventsOutput (mcLinkSessionInit rx) events) :
    (∀ ready, (waitForReady turns).1 = some (.ok ready) →
      ∃ n ≤ events.length, ∃ granted : Capabilities,
        Granted (lastRequest (events.take n)) granted ∧
        capabilities (eventRun (mcLinkSessionInit rx) (events.take n)) = granted ∧
        ready = granted.readyState) ∧
    ((∀ ready, (waitForReady turns).1 ≠ some (.ok ready)) →
      ∀ frame ∈ linkFrames (waitForReady turns).2.bytes, frame.type ≠ mcLinkReady) := by
  have hfound := (waitForReady_agrees turns).found
  rw [findSome?_readyEvent] at hfound
  have hline : ∀ frame ∈ linkFrames (waitForReady turns).2.bytes,
      frame ∈ linkFrames (eventsOutput (mcLinkSessionInit rx) events) := by
    obtain ⟨later, hlater⟩ := hwire
    intro frame hmem
    rw [← hlater, linkFrames_append]
    exact List.mem_append_left _ hmem
  constructor
  · intro ready hresult
    rw [hresult] at hfound
    obtain ⟨frame, hmem, hready⟩ := List.exists_of_findSome?_eq_some hfound
    have htype : frame.type = mcLinkReady := by
      rw [readyFrame] at hready
      split_ifs at hready with htype
      exact eq_toU8_of_fromU8 htype
    obtain ⟨n, hn, hagrees⟩ := readyFrame_of_mem (hline frame hmem) htype
    refine ⟨n, hn, _, (eventRun_invariant rx (events.take n)).2, rfl, ?_⟩
    exact Option.some.inj (hready.symm.trans hagrees)
  · intro hresult frame hmem htype
    obtain ⟨n, _, hagrees⟩ := readyFrame_of_mem (hline frame hmem) htype
    have hnone : answered (waitForReady turns).1 = none := by
      unfold answered
      split
      · next ready hcase => exact absurd hcase (hresult ready)
      · rfl
    rw [hnone, List.findSome?_eq_none_iff] at hfound
    rw [hfound frame hmem] at hagrees
    cases hagrees

/-- The firmware gets a HELLO and sends its READY, which the first turn reads. -/
def helloEvents : List LinkEvent :=
  [.frame
    { type := mcLinkHello, flags := 0, seq := 0, ack := 0
      payload := Bridge.Link.helloPayload Bridge.Link.defaultPayload Bridge.Link.initialCredit },
    .readTx 512]

def helloTurns : List WaitTurn :=
  [{ now := 0, checkedAt := 0, written := .ok (), sentAt := 1
     read := .bytes (eventsOutput (mcLinkSessionInit (.init 8192)) helloEvents) }]

theorem waitForReady_granted_hello :
    ∃ ready, (waitForReady helloTurns).1 = some (.ok ready) ∧ ready.initialCredit = 512 ∧
      ∃ n ≤ helloEvents.length, ∃ granted, Granted (lastRequest (helloEvents.take n)) granted ∧
        ready = granted.readyState := by
  have hwire : (waitForReady helloTurns).2.bytes <+:
      eventsOutput (mcLinkSessionInit (.init 8192)) helloEvents := by decide +kernel
  have hanswered : (answered (waitForReady helloTurns).1).map (·.initialCredit) = some 512 := by
    decide +kernel
  obtain ⟨ready, hready, hcredit⟩ := Option.map_eq_some_iff.mp hanswered
  have hresult : (waitForReady helloTurns).1 = some (.ok ready) := by
    unfold answered at hready
    split at hready
    · next hcase => rw [hcase, Option.some.inj hready]
    · cases hready
  obtain ⟨n, hn, granted, hgranted, _, hagrees⟩ := (waitForReady_granted hwire).1 ready hresult
  exact ⟨ready, hresult, hcredit, n, hn, granted, hgranted, hagrees⟩

end StarrySky.System
