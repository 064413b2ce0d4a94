import StarrySky.Bridge.Handshake
import StarrySky.Bridge.RateProbe

/-! The wait for the firmware before any client is served, `wait_for_ready` in
`bridge/src/handshake.rs`. -/

namespace StarrySky.Bridge
open StarrySky.Base
open StarrySky.Link (mcLinkFrameBytes)

abbrev linkReadyTimeout : ℕ := 5000
abbrev linkHelloInterval : ℕ := 100
abbrev Link.defaultPayload : UInt16 := 497
abbrev Link.initialCredit : UInt16 := 512
abbrev Link.supportedRateMask : UInt16 := 0x3ff

def Link.helloPayload (desiredPayload desiredCredit : UInt16) : List UInt8 :=
  leBytes desiredPayload ++ leBytes desiredCredit ++ leBytes Link.supportedRateMask

/-- A turn of the loop: the milliseconds since its start at its head and when the last HELLO is
looked at, how the write of a HELLO ends and when, and the read. -/
structure WaitTurn where
  now : ℕ
  checkedAt : ℕ
  written : Except IoError Unit
  sentAt : ℕ
  read : SerialRead

/-- The variables of `wait_for_ready`. As history, when the HELLOs were written, and the bytes
read. -/
structure ReadyWait where
  lastHello : Option ℕ
  decoder : Link.Decoder
  hellos : List ℕ
  bytes : List UInt8

def ReadyWait.start : ReadyWait where
  lastHello := none
  decoder := .new
  hellos := []
  bytes := []

def readyFrame (frame : Link.Frame) : Option ReadyState :=
  if frame.frameType = .ready then (Link.parseReady frame.payload).bind normalizeReady else none

/-- What the loop over the events returns at; all else is only logged. -/
def readyEvent : Link.DecodeEvent → Option ReadyState
  | .frame frame => readyFrame frame
  | .error _ => none

def writeHello (wait : ReadyWait) (turn : WaitTurn) : Except IoError ReadyWait :=
  if wait.lastHello.all fun sent => turn.checkedAt - sent ≥ linkHelloInterval then
    match turn.written with
    | .error error => .error error
    | .ok () =>
      .ok { wait with lastHello := some turn.sentAt, hellos := wait.hellos ++ [turn.sentAt] }
  else .ok wait

def waitTurn (wait : ReadyWait) (turn : WaitTurn) :
    Option (Except IoError ReadyState) × ReadyWait :=
  if turn.now < linkReadyTimeout then
    match writeHello wait turn with
    | .error error => (some (.error error), wait)
    | .ok wait =>
      match turn.read with
      | .failed error => (some (.error error), wait)
      | read =>
        let fed := wait.decoder.feed read.buf
        ((fed.2.findSome? readyEvent).map .ok,
          { wait with decoder := fed.1, bytes := wait.bytes ++ read.buf })
  else
    (some (.error { kind := .timedOut, message := "timed out waiting for link READY" }), wait)

def waitLoop (wait : ReadyWait) :
    List WaitTurn → Option (Except IoError ReadyState) × ReadyWait
  | [] => (none, wait)
  | turn :: turns =>
    match waitTurn wait turn with
    | (none, wait) => waitLoop wait turns
    | ended => ended

/-- The call, as far as the turns go. -/
def waitForReady (turns : List WaitTurn) : Option (Except IoError ReadyState) × ReadyWait :=
  match encodeFrame .hello 0 (Link.helloPayload Link.defaultPayload Link.initialCredit) with
  | .error error => (some (.error error), .start)
  | .ok _ => waitLoop .start turns

/-- What the call returned, if it did so without an error. -/
def answered : Option (Except IoError ReadyState) → Option ReadyState
  | some (.ok ready) => some ready
  | _ => none

/-- A HELLO was written before the first read, and if the clock is one, they are spaced. -/
structure HellosSpaced (clocked : Prop) (wait : ReadyWait) : Prop where
  last : wait.hellos.getLast? = wait.lastHello
  spaced : clocked → wait.hellos.IsChain fun sent next => sent + linkHelloInterval ≤ next
  first : wait.bytes ≠ [] → wait.hellos ≠ []

/-- The call is where the bytes that were read bring it. -/
structure WaitAgrees (result : Option (Except IoError ReadyState)) (wait : ReadyWait) : Prop where
  decoder : wait.decoder = (Link.Decoder.new.feed wait.bytes).1
  found : (Link.Decoder.new.feed wait.bytes).2.findSome? readyEvent = answered result

theorem writeHello_cases {wait next : ReadyWait} {turn : WaitTurn}
    (h : writeHello wait turn = .ok next) :
    next = wait ∧ wait.lastHello ≠ none ∨
    next = { wait with lastHello := some turn.sentAt, hellos := wait.hellos ++ [turn.sentAt] } ∧
      ∀ sent ∈ wait.lastHello, sent + linkHelloInterval ≤ turn.checkedAt := by
  unfold writeHello at h
  split_ifs at h with hdue
  · right
    cases hwritten : turn.written with
    | error error =>
      rw [hwritten] at h
      cases h
    | ok _ =>
      rw [hwritten] at h
      refine ⟨(Except.ok.inj h).symm, fun sent hsent => ?_⟩
      rw [Option.mem_def.mp hsent, Option.all_some, decide_eq_true_eq] at hdue
      have hinterval : 100 ≤ turn.checkedAt - sent := hdue
      show sent + 100 ≤ turn.checkedAt
      omega
  · left
    refine ⟨(Except.ok.inj h).symm, fun hnone => hdue ?_⟩
    rw [hnone]
    rfl

theorem writeHello_ok {wait next : ReadyWait} {turn : WaitTurn}
    (h : writeHello wait turn = .ok next) :
    next.decoder = wait.decoder ∧ next.bytes = wait.bytes := by
  rcases writeHello_cases h with ⟨rfl, _⟩ | ⟨rfl, _⟩
  · exact ⟨rfl, rfl⟩
  · exact ⟨rfl, rfl⟩

theorem WaitAgrees.congr {result : Option (Except IoError ReadyState)} {wait next : ReadyWait}
    (h : WaitAgrees result wait) (hdecoder : next.decoder = wait.decoder)
    (hbytes : next.bytes = wait.bytes) : WaitAgrees result next :=
  ⟨by rw [hdecoder, hbytes, h.decoder], by rw [hbytes, h.found]⟩

theorem WaitAgrees.failed {wait : ReadyWait} (h : WaitAgrees none wait) (error : IoError) :
    WaitAgrees (some (.error error)) wait := ⟨h.decoder, h.found⟩

theorem WaitAgrees.waitTurn {wait : ReadyWait} (h : WaitAgrees none wait) (turn : WaitTurn) :
    WaitAgrees (waitTurn wait turn).1 (waitTurn wait turn).2 := by
  unfold Bridge.waitTurn
  split
  next hintime =>
    cases hhello : writeHello wait turn with
    | error error => exact h.failed error
    | ok next =>
      obtain ⟨hdecoder, hbytes⟩ := writeHello_ok hhello
      have hnext := h.congr hdecoder hbytes
      -- feeding the bytes of one read more is feeding them all
      have hfed : ∀ buf : List UInt8, WaitAgrees
          (((next.decoder.feed buf).2.findSome? readyEvent).map .ok)
          { next with decoder := (next.decoder.feed buf).1, bytes := next.bytes ++ buf } := by
        intro buf
        have hfeed := feed_append Link.Decoder.new next.bytes buf
        rw [← hnext.decoder] at hfeed
        refine ⟨by rw [hfeed], ?_⟩
        dsimp only
        rw [hfeed, List.findSome?_append, hnext.found]
        cases (next.decoder.feed buf).2.findSome? readyEvent <;> rfl
      dsimp only
      cases turn.read with
      | bytes data => exact hfed (SerialRead.bytes data).buf
      | idle => exact hfed SerialRead.idle.buf
      | failed error => exact hnext.failed error
  next => exact h.failed _

section
variable {clocked : Prop}

theorem HellosSpaced.writeHello {wait next : ReadyWait} {turn : WaitTurn}
    (h : HellosSpaced clocked wait) (hclock : clocked → turn.checkedAt ≤ turn.sentAt)
    (hnext : writeHello wait turn = .ok next) : HellosSpaced clocked next ∧ next.hellos ≠ [] := by
  rcases writeHello_cases hnext with ⟨rfl, hsome⟩ | ⟨rfl, hdue⟩
  · refine ⟨h, fun hnil => hsome ?_⟩
    rw [← h.last, hnil]
    rfl
  · refine ⟨⟨List.getLast?_concat, fun hc => ?_, fun _ => by simp⟩, by simp⟩
    refine List.isChain_append.mpr ⟨h.spaced hc, List.isChain_singleton _, ?_⟩
    intro sent hsent later hlater
    rw [h.last] at hsent
    rw [← Option.some.inj hlater]
    exact (hdue sent hsent).trans (hclock hc)

theorem HellosSpaced.waitTurn {wait : ReadyWait} (h : HellosSpaced clocked wait) {turn : WaitTurn}
    (hclock : clocked → turn.checkedAt ≤ turn.sentAt) :
    HellosSpaced clocked (waitTurn wait turn).2 := by
  unfold Bridge.waitTurn
  split
  next hintime =>
    cases hhello : Bridge.writeHello wait turn with
    | error error => exact h
    | ok next =>
      obtain ⟨hnext, hsent⟩ := h.writeHello hclock hhello
      dsimp only
      cases turn.read with
      | bytes data => exact ⟨hnext.last, hnext.spaced, fun _ => hsent⟩
      | idle => exact ⟨hnext.last, hnext.spaced, fun _ => hsent⟩
      | failed error => exact hnext
  next => exact h

end

theorem waitLoop_preserves {wait : ReadyWait} (motive : ReadyWait → Prop)
    {turns : List WaitTurn}
    (hturn : ∀ wait, ∀ turn ∈ turns, motive wait → motive (waitTurn wait turn).2)
    (h : motive wait) : motive (waitLoop wait turns).2 := by
  induction turns generalizing wait with
  | nil => exact h
  | cons turn turns ih =>
    have hnext := hturn wait turn List.mem_cons_self h
    rw [waitLoop]
    split
    · next hcase =>
      rw [hcase] at hnext
      exact ih (fun wait turn hmem => hturn wait turn (List.mem_cons_of_mem _ hmem)) hnext
    · exact hnext

theorem WaitAgrees.waitLoop {wait : ReadyWait} (h : WaitAgrees none wait)
    (turns : List WaitTurn) :
    WaitAgrees (waitLoop wait turns).1 (waitLoop wait turns).2 := by
  induction turns generalizing wait with
  | nil => exact h
  | cons turn turns ih =>
    have hnext := h.waitTurn turn
    rw [Bridge.waitLoop]
    split
    · next hcase =>
      rw [hcase] at hnext
      exact ih hnext
    · exact hnext

theorem encodeFrame_hello :
    (encodeFrame .hello 0 (Link.helloPayload Link.defaultPayload
      Link.initialCredit)).toOption.isSome = true := by
  decide +kernel

theorem waitForReady_eq (turns : List WaitTurn) : waitForReady turns = waitLoop .start turns := by
  have hhello := encodeFrame_hello
  unfold waitForReady
  generalize encodeFrame .hello 0 (Link.helloPayload Link.defaultPayload Link.initialCredit) =
    encoded at hhello ⊢
  cases encoded with
  | error error => cases hhello
  | ok hello => rfl

theorem waitForReady_agrees (turns : List WaitTurn) :
    WaitAgrees (waitForReady turns).1 (waitForReady turns).2 := by
  have hstart : WaitAgrees none .start := ⟨rfl, rfl⟩
  rw [waitForReady_eq]
  exact hstart.waitLoop turns

/-- Whatever the reads are and however they are cut, the call returns the first valid READY of all
the bytes it read, and an error only if there is none; a HELLO is on the line before the first read;
and with a clock that does not run backwards at least the interval lies between two. -/
theorem waitForReady_firstReady (turns : List WaitTurn) :
    (∀ ready, (waitForReady turns).1 = some (.ok ready) ↔
      (Link.Decoder.new.feed (waitForReady turns).2.bytes).2.findSome? readyEvent = some ready) ∧
    ((waitForReady turns).2.bytes ≠ [] → (waitForReady turns).2.hellos ≠ []) ∧
    ((∀ turn ∈ turns, turn.checkedAt ≤ turn.sentAt) →
      (waitForReady turns).2.hellos.IsChain fun sent next => sent + linkHelloInterval ≤ next) := by
  have hspaced : HellosSpaced (∀ turn ∈ turns, turn.checkedAt ≤ turn.sentAt)
      (waitForReady turns).2 := by
    rw [waitForReady_eq]
    refine waitLoop_preserves (HellosSpaced _)
      (fun wait turn hmem h => h.waitTurn fun hclock => hclock turn hmem) ?_
    exact ⟨rfl, fun _ => List.isChain_nil, fun h => absurd rfl h⟩
  refine ⟨fun ready => ?_, hspaced.first, hspaced.spaced⟩
  rw [(waitForReady_agrees turns).found]
  constructor
  · intro hresult
    rw [hresult]
    rfl
  · intro hresult
    unfold answered at hresult
    split at hresult
    · next hcase => rw [hcase, Option.some.inj hresult]
    · cases hresult

/-- A READY that comes in two reads, the second of them behind a second HELLO. -/
def readyTurns : List WaitTurn :=
  let ready := mcLinkFrameBytes 2 0 0
    (leBytes 497 ++ leBytes 512 ++ leBytes 512 ++ leBytes 0x3ff ++ [0] ++ leBytes 0)
  [{ now := 0, checkedAt := 0, written := .ok (), sentAt := 1, read := .idle },
    { now := 60, checkedAt := 60, written := .ok (), sentAt := 60, read := .bytes (ready.take 7) },
    { now := 120, checkedAt := 120, written := .ok (), sentAt := 121
      read := .bytes (ready.drop 7) }]

theorem waitForReady_firstReady_twoReads :
    (waitForReady readyTurns).1 = some (.ok
      { negotiatedPayload := 497, initialCredit := 512, supportedRateMask := 0x3ff }) ∧
    (waitForReady readyTurns).2.hellos = [1, 121] ∧
    (waitForReady readyTurns).2.hellos.IsChain fun sent next => sent + linkHelloInterval ≤ next := by
  have hwait := waitForReady_firstReady readyTurns
  have hfirst := hwait.1
    { negotiatedPayload := 497, initialCredit := 512, supportedRateMask := 0x3ff }
  exact ⟨hfirst.mpr (by decide +kernel), by decide +kernel, hwait.2.2 (by decide)⟩

end StarrySky.Bridge
