import StarrySky.Bridge.RateRun
import StarrySky.Bridge.SerialDrain

/-! The probes of `bridge/src/rate_calibration.rs` on a serial port that does as it likes, and the
calibration over them. -/

namespace StarrySky.Bridge
open StarrySky.Base
open StarrySky.Link (mcLinkFrameBytes)

abbrev ioBufLen : ℕ := 8192

/-- What `serial.read` gives: bytes, nothing in time, or an error that ends the calibration. -/
inductive SerialRead
  | bytes (bytes : List UInt8)
  | idle
  | failed (error : IoError)

def SerialRead.buf : SerialRead → List UInt8
  | .bytes data => data.take ioBufLen
  | _ => []

/-- How the writes of the probes end, how often each wait finds itself within its timeout, and the
reads. -/
structure CalibrationPort where
  writeFramePaced : ℕ → Except IoError Unit
  turnsInTime : ℕ → ℕ
  read : ℕ → SerialRead

/-- A probe that was made, with the frames it looked at. -/
structure ProbeRecord where
  profile : RateProfile
  nonce : UInt16
  answered : Bool
  examined : List Link.Frame

/-- The variables of `calibrate_rate_with_sleep`, the count of the reads, the frames that the
current probe has looked at and the probes before it. -/
structure Calibration where
  decoder : Link.Decoder
  pendingFrames : List Link.Frame
  reads : ℕ
  examined : List Link.Frame
  records : List ProbeRecord

def Calibration.start : Calibration where
  decoder := .new
  pendingFrames := []
  reads := 0
  examined := []
  records := []

def Calibration.examine (state : Calibration) (frame : Link.Frame) : Calibration :=
  { state with examined := state.examined ++ [frame] }

def Calibration.record (state : Calibration) (profile : RateProfile) (nonce : UInt16)
    (answered : Bool) : Calibration :=
  { state with
    examined := []
    records := state.records ++ [⟨profile, nonce, answered, state.examined⟩] }

def rateProbePayload (profile : RateProfile) (probeIndex : UInt16) : List UInt8 :=
  let sleepUs := if profile.interByteSleep < 2 ^ 16 then UInt16.ofNat profile.interByteSleep
    else 0xffff
  leBytes sleepUs ++ leBytes probeIndex

def dataDuringCalibration : IoError :=
  { kind := .invalidData, message := "DATA_M2C received during rate calibration" }

section
variable (expectedSeq : UInt16) (expectedPayload : List UInt8)

def rateProbeAckMatches (frame : Link.Frame) : Except IoError Bool :=
  match frame.frameType with
  | .rateProbeAck => .ok (frame.seq = expectedSeq ∧ frame.payload = expectedPayload)
  | .dataM2c => .error dataDuringCalibration
  | _ => .ok false

/-- The loop over `pending_frames`; the list is what is left of them. -/
def matchPending (state : Calibration) : List Link.Frame → Except IoError (Bool × Calibration)
  | [] => .ok (false, { state with pendingFrames := [] })
  | frame :: frames =>
    match rateProbeAckMatches expectedSeq expectedPayload frame with
    | .error error => .error error
    | .ok true => .ok (true, { state.examine frame with pendingFrames := frames })
    | .ok false => matchPending (state.examine frame) frames

/-- The loop over the events of a read; frames behind a match wait for the next probe. -/
def matchEvents (state : Calibration) (matched : Bool) :
    List Link.DecodeEvent → Except IoError (Bool × Calibration)
  | [] => .ok (matched, state)
  | .error _ :: events => matchEvents state matched events
  | .frame frame :: events =>
    if matched then
      if frame.frameType = .dataM2c then .error dataDuringCalibration
      else
        matchEvents { state with pendingFrames := state.pendingFrames ++ [frame] } true events
    else
      match rateProbeAckMatches expectedSeq expectedPayload frame with
      | .error error => .error error
      | .ok matched => matchEvents (state.examine frame) matched events

/-- One read of `wait_for_rate_probe_ack`. -/
def readRateProbeAck (port : CalibrationPort) (state : Calibration) :
    Except IoError (Bool × Calibration) :=
  match port.read state.reads with
  | .failed error => .error error
  | read =>
    let fed := state.decoder.feed read.buf
    matchEvents expectedSeq expectedPayload
      { state with decoder := fed.1, reads := state.reads + 1 } false fed.2

def waitForRateProbeAck (port : CalibrationPort) :
    ℕ → Calibration → Except IoError (Bool × Calibration)
  | 0, state => .ok (false, state)
  | turns + 1, state =>
    match matchPending expectedSeq expectedPayload state state.pendingFrames with
    | .error error => .error error
    | .ok (true, state) => .ok (true, state)
    | .ok (false, state) =>
      match readRateProbeAck expectedSeq expectedPayload port state with
      | .error error => .error error
      | .ok (true, state) => .ok (true, state)
      | .ok (false, state) => waitForRateProbeAck port turns state

end

section
variable (port : CalibrationPort)

def probeRateOnce (profile : RateProfile) (probeNonce : UInt16) (state : Calibration) :
    Except IoError (Bool × Calibration) :=
  let payload := rateProbePayload profile probeNonce
  match encodeFrame .rateProbe probeNonce payload with
  | .error error => .error error
  | .ok _ =>
    match port.writeFramePaced state.records.length with
    | .error error => .error error
    | .ok () =>
      match waitForRateProbeAck probeNonce payload port (port.turnsInTime state.records.length)
          state with
      | .error error => .error error
      | .ok (answered, state) => .ok (answered, state.record profile probeNonce answered)

/-- The probes of one profile: how many were answered. -/
def probeRateWithSleep (profile : RateProfile) (successes : UInt8) (nonce : UInt16)
    (state : Calibration) : ℕ → Except IoError (UInt8 × Calibration)
  | 0 => .ok (successes, state)
  | attempts + 1 =>
    match probeRateOnce port profile nonce state with
    | .error error => .error error
    | .ok (answered, state) =>
      probeRateWithSleep profile (if answered then saturatingSucc successes else successes)
        (nonce + 1) state attempts

/-- The loop of `calibrate_rate_with_sleep` over the profiles. -/
def calibrateProfilesWithSleep (supportedMask : UInt16) (controller : RateController)
    (nonce : UInt16) (state : Calibration) :
    List RateProfile → Except IoError (RateController × Calibration)
  | [] => .ok (controller, state)
  | profile :: profiles =>
    if supportedMask &&& profileBit profile.id = 0 then
      calibrateProfilesWithSleep supportedMask controller nonce state profiles
    else
      match probeRateWithSleep port profile 0 nonce state rateProbeAttempts with
      | .error error => .error error
      | .ok (successes, state) =>
        if successes = 3 then
          calibrateProfilesWithSleep supportedMask
            (controller.markProfileStableWithMask profile.id supportedMask)
            (nonce + UInt16.ofNat rateProbeAttempts) state profiles
        else if successes = 2 then
          .ok (controller.markProfileStableWithMask profile.id supportedMask, state)
        else if profile.id = 0 then
          .error
            { kind := .timedOut
              message := "rate slowest profile failed sleep_us=" ++
                toString profile.interByteSleep ++ " successes=" ++ toString successes ++ "/" ++
                toString rateProbeAttempts }
        else .ok (controller, state)

def calibrateRateWithSleep (supportedMask : UInt16) :
    Except IoError (RateController × Calibration) :=
  match probeRateWithSleep port slowestProfile 0 0 .start rateWarmupAttempts with
  | .error error => .error error
  | .ok (successes, state) =>
    if successes = 0 then
      .error
        { kind := .timedOut
          message := "rate warmup failed at sleep_us=" ++ toString slowestProfile.interByteSleep }
    else
      calibrateProfilesWithSleep port supportedMask .new (UInt16.ofNat rateWarmupAttempts) state
        rateProfiles

end

def Answers (seq : UInt16) (payload : List UInt8) (frame : Link.Frame) : Prop :=
  frame.frameType = .rateProbeAck ∧ frame.seq = seq ∧ frame.payload = payload

/-- A probe looks at frames up to the first that answers it. -/
structure Looked (seq : UInt16) (payload : List UInt8) (answered : Bool)
    (examined : List Link.Frame) : Prop where
  answered_iff : answered = true ↔ ∃ frame ∈ examined, Answers seq payload frame
  not_earlier : ∀ frame ∈ examined.dropLast, ¬Answers seq payload frame

variable {seq : UInt16} {payload : List UInt8} {port : CalibrationPort}

theorem looked_nil (seq : UInt16) (payload : List UInt8) : Looked seq payload false [] :=
  ⟨by simp, fun _ hmem => absurd hmem List.not_mem_nil⟩

theorem Looked.examine {examined : List Link.Frame} (h : Looked seq payload false examined)
    {frame : Link.Frame} {matched : Bool} (hmatched : matched = true ↔ Answers seq payload frame) :
    Looked seq payload matched (examined ++ [frame]) := by
  have hnone : ∀ earlier ∈ examined, ¬Answers seq payload earlier := by
    intro earlier hmem hanswers
    exact Bool.false_ne_true (h.answered_iff.mpr ⟨earlier, hmem, hanswers⟩)
  refine ⟨?_, ?_⟩
  · rw [hmatched]
    constructor
    · intro hanswers
      exact ⟨frame, List.mem_append_right _ (List.mem_singleton_self _), hanswers⟩
    · rintro ⟨found, hmem, hanswers⟩
      rcases List.mem_append.mp hmem with hmem | hmem
      · exact absurd hanswers (hnone found hmem)
      · rwa [List.mem_singleton.mp hmem] at hanswers
  · rw [List.dropLast_concat]
    exact hnone

theorem rateProbeAckMatches_ok {frame : Link.Frame} {matched : Bool}
    (h : rateProbeAckMatches seq payload frame = .ok matched) :
    frame.frameType ≠ .dataM2c ∧ (matched = true ↔ Answers seq payload frame) := by
  rw [rateProbeAckMatches] at h
  rw [Answers]
  cases htype : frame.frameType with
  | rateProbeAck =>
    rw [htype] at h
    cases h
    simp
  | dataM2c =>
    rw [htype] at h
    cases h
  | _ =>
    rw [htype] at h
    cases h
    simp

/-- The loops over frames touch nothing else. -/
structure SameReads (s t : Calibration) : Prop where
  decoder : t.decoder = s.decoder
  reads : t.reads = s.reads
  records : t.records = s.records

theorem SameReads.trans {s t u : Calibration} (h : SameReads s t) (h' : SameReads t u) :
    SameReads s u :=
  ⟨h'.decoder.trans h.decoder, h'.reads.trans h.reads, h'.records.trans h.records⟩

theorem matchPending_ok {state next : Calibration} {frames : List Link.Frame} {matched : Bool}
    (h : matchPending seq payload state frames = .ok (matched, next))
    (hlooked : Looked seq payload false state.examined) :
    SameReads state next ∧ Looked seq payload matched next.examined ∧
      next.examined ++ next.pendingFrames = state.examined ++ frames ∧
      (matched = false → next.pendingFrames = []) := by
  induction frames generalizing state with
  | nil =>
    rw [matchPending] at h
    cases h
    exact ⟨⟨rfl, rfl, rfl⟩, hlooked, rfl, fun _ => rfl⟩
  | cons frame frames ih =>
    rw [matchPending] at h
    cases hframe : rateProbeAckMatches seq payload frame with
    | error error =>
      rw [hframe] at h
      cases h
    | ok answers =>
      have hlooked' := hlooked.examine (rateProbeAckMatches_ok hframe).2
      rw [hframe] at h
      cases answers with
      | true =>
        cases h
        exact ⟨⟨rfl, rfl, rfl⟩, hlooked', List.append_assoc _ _ _, fun h => by cases h⟩
      | false =>
        obtain ⟨hsame, hnext, hframes, hpending⟩ := ih h hlooked'
        have hstate : SameReads state (state.examine frame) := ⟨rfl, rfl, rfl⟩
        exact ⟨hstate.trans hsame, hnext, hframes.trans (List.append_assoc _ _ _), hpending⟩

def framesOf (events : List Link.DecodeEvent) : List Link.Frame :=
  events.filterMap fun event => match event with
    | .frame frame => some frame
    | .error _ => none

theorem matchEvents_ok {state next : Calibration} {events : List Link.DecodeEvent}
    {matched answered : Bool} (h : matchEvents seq payload state matched events = .ok (answered, next))
    (hlooked : Looked seq payload matched state.examined)
    (hpending : matched = false → state.pendingFrames = []) :
    SameReads state next ∧ Looked seq payload answered next.examined ∧
      next.examined ++ next.pendingFrames =
        state.examined ++ state.pendingFrames ++ framesOf events ∧
      (answered = false → next.pendingFrames = []) ∧
      ∀ frame ∈ framesOf events, frame.frameType ≠ .dataM2c := by
  induction events generalizing state matched with
  | nil =>
    rw [matchEvents] at h
    cases h
    refine ⟨⟨rfl, rfl, rfl⟩, hlooked, (List.append_nil _).symm, hpending, ?_⟩
    exact fun _ hmem => absurd hmem List.not_mem_nil
  | cons event events ih =>
    cases event with
    | error error =>
      rw [matchEvents] at h
      exact ih h hlooked hpending
    | frame frame =>
      have hcons : framesOf (.frame frame :: events) = frame :: framesOf events := rfl
      have hdata : frame.frameType ≠ .dataM2c →
          (∀ later ∈ framesOf events, later.frameType ≠ .dataM2c) →
            ∀ any ∈ frame :: framesOf events, any.frameType ≠ .dataM2c := by
        intro hfirst hlater any hmem
        rcases List.mem_cons.mp hmem with rfl | hmem
        · exact hfirst
        · exact hlater any hmem
      rw [matchEvents] at h
      rw [hcons]
      cases matched with
      | true =>
        rw [if_pos rfl] at h
        split_ifs at h with htype
        obtain ⟨hsame, hnext, hframes, hleft, hlater⟩ := ih h hlooked fun h => by cases h
        refine ⟨⟨hsame.decoder, hsame.reads, hsame.records⟩, hnext, ?_, hleft, hdata htype hlater⟩
        rw [hframes]
        simp only [List.append_assoc, List.singleton_append]
      | false =>
        rw [if_neg Bool.false_ne_true] at h
        cases hframe : rateProbeAckMatches seq payload frame with
        | error error =>
          rw [hframe] at h
          cases h
        | ok answers =>
          obtain ⟨htype, hanswers⟩ := rateProbeAckMatches_ok hframe
          rw [hframe] at h
          obtain ⟨hsame, hnext, hframes, hleft, hlater⟩ :=
            ih h (hlooked.examine hanswers) fun _ => hpending rfl
          refine ⟨⟨hsame.decoder, hsame.reads, hsame.records⟩, hnext, ?_, hleft, hdata htype hlater⟩
          rw [hframes, Calibration.examine, hpending rfl]
          simp only [List.append_nil, List.append_assoc, List.singleton_append]

/-- All bytes of the first reads, and the frames in them. -/
def bytesRead (port : CalibrationPort) (reads : ℕ) : List UInt8 :=
  (List.range reads).flatMap fun read => (port.read read).buf

def framesRead (port : CalibrationPort) (reads : ℕ) : List Link.Frame :=
  framesOf (Link.Decoder.new.feed (bytesRead port reads)).2

theorem bytesRead_succ (port : CalibrationPort) (reads : ℕ) :
    bytesRead port (reads + 1) = bytesRead port reads ++ (port.read reads).buf := by
  rw [bytesRead, List.range_succ, List.flatMap_append, List.flatMap_singleton, bytesRead]

/-- The frames read are those looked at by earlier probes and by the current one, then those that
wait. None carries data. -/
structure Reading (port : CalibrationPort) (earlier : List Link.Frame) (state : Calibration) :
    Prop where
  decoder : state.decoder = (Link.Decoder.new.feed (bytesRead port state.reads)).1
  frames : earlier ++ (state.examined ++ state.pendingFrames) = framesRead port state.reads
  not_data : ∀ frame ∈ framesRead port state.reads, frame.frameType ≠ .dataM2c

theorem Reading.congr {earlier : List Link.Frame} {s t : Calibration} (h : Reading port earlier s)
    (hsame : SameReads s t)
    (hframes : t.examined ++ t.pendingFrames = s.examined ++ s.pendingFrames) :
    Reading port earlier t := by
  refine ⟨?_, ?_, ?_⟩
  · rw [hsame.decoder, hsame.reads]
    exact h.decoder
  · rw [hsame.reads, hframes]
    exact h.frames
  · rw [hsame.reads]
    exact h.not_data

theorem feed_bytesRead (port : CalibrationPort) (reads : ℕ) :
    Link.Decoder.new.feed (bytesRead port (reads + 1)) =
      (((Link.Decoder.new.feed (bytesRead port reads)).1.feed (port.read reads).buf).1,
        (Link.Decoder.new.feed (bytesRead port reads)).2 ++
          ((Link.Decoder.new.feed (bytesRead port reads)).1.feed (port.read reads).buf).2) := by
  rw [bytesRead_succ, feed_append]

theorem framesOf_append (xs ys : List Link.DecodeEvent) :
    framesOf (xs ++ ys) = framesOf xs ++ framesOf ys := List.filterMap_append

theorem readRateProbeAck_ok {earlier : List Link.Frame} {state next : Calibration}
    {answered : Bool} (h : readRateProbeAck seq payload port state = .ok (answered, next))
    (hreading : Reading port earlier state) (hlooked : Looked seq payload false state.examined)
    (hpending : state.pendingFrames = []) :
    Reading port earlier next ∧ Looked seq payload answered next.examined ∧
      next.records = state.records ∧ (answered = false → next.pendingFrames = []) := by
  have hread : matchEvents seq payload
      { state with
        decoder := (state.decoder.feed (port.read state.reads).buf).1, reads := state.reads + 1 }
      false (state.decoder.feed (port.read state.reads).buf).2 = .ok (answered, next) := by
    rw [readRateProbeAck] at h
    cases hcall : port.read state.reads with
    | failed error =>
      rw [hcall] at h
      cases h
    | bytes data =>
      rw [hcall] at h
      exact h
    | idle =>
      rw [hcall] at h
      exact h
  obtain ⟨hsame, hnext, hframes, hnone, hdata⟩ := matchEvents_ok hread hlooked fun _ => hpending
  have hreads : next.reads = state.reads + 1 := hsame.reads
  have hdecoder := feed_bytesRead port state.reads
  rw [← hreading.decoder] at hdecoder
  have hall : framesRead port (state.reads + 1) = framesRead port state.reads ++
      framesOf (state.decoder.feed (port.read state.reads).buf).2 := by
    rw [framesRead, hdecoder, framesOf_append, framesRead]
  refine ⟨⟨?_, ?_, ?_⟩, hnext, hsame.records, hnone⟩
  · rw [hsame.decoder, hreads, hdecoder]
  · rw [hreads, hall, hframes, ← hreading.frames]
    simp only [List.append_assoc]
  · rw [hreads, hall]
    intro frame hmem
    rcases List.mem_append.mp hmem with hmem | hmem
    · exact hreading.not_data frame hmem
    · exact hdata frame hmem

theorem waitForRateProbeAck_ok {earlier : List Link.Frame} {turns : ℕ} {state next : Calibration}
    {answered : Bool} (h : waitForRateProbeAck seq payload port turns state = .ok (answered, next))
    (hreading : Reading port earlier state) (hlooked : Looked seq payload false state.examined) :
    Reading port earlier next ∧ Looked seq payload answered next.examined ∧
      next.records = state.records := by
  induction turns generalizing state with
  | zero =>
    rw [waitForRateProbeAck] at h
    cases h
    exact ⟨hreading, hlooked, rfl⟩
  | succ turns ih =>
    rw [waitForRateProbeAck] at h
    rcases hpending : matchPending seq payload state state.pendingFrames with
      error | ⟨_ | _, checked⟩
    · rw [hpending] at h
      cases h
    · -- none of the frames that waited: the port is read
      obtain ⟨hsame, hlooked', hframes, hnone⟩ := matchPending_ok hpending hlooked
      have hreading' := hreading.congr hsame hframes
      rw [hpending] at h
      dsimp only at h
      rcases hread : readRateProbeAck seq payload port checked with error | ⟨_ | _, last⟩
      · rw [hread] at h
        cases h
      · obtain ⟨hreading'', hlooked'', hrecords, _⟩ :=
          readRateProbeAck_ok hread hreading' hlooked' (hnone rfl)
        rw [hread] at h
        obtain ⟨hdone, hlast, hsame'⟩ := ih h hreading'' hlooked''
        exact ⟨hdone, hlast, hsame'.trans (hrecords.trans hsame.records)⟩
      · obtain ⟨hreading'', hlooked'', hrecords, _⟩ :=
          readRateProbeAck_ok hread hreading' hlooked' (hnone rfl)
        rw [hread] at h
        cases h
        exact ⟨hreading'', hlooked'', hrecords.trans hsame.records⟩
    · obtain ⟨hsame, hlooked', hframes, _⟩ := matchPending_ok hpending hlooked
      rw [hpending] at h
      cases h
      exact ⟨hreading.congr hsame hframes, hlooked', hsame.records⟩

/-- The frames that the probes so far looked at. -/
def Calibration.lookedAt (state : Calibration) : List Link.Frame :=
  state.records.flatMap ProbeRecord.examined

/-- Between two probes: the probes are numbered, each looked at its own frames, and the frames read
are those looked at, in order, and those that wait. -/
structure Calibrating (port : CalibrationPort) (state : Calibration) : Prop where
  reading : Reading port state.lookedAt state
  idle : state.examined = []
  looked : ∀ (i : ℕ) record, state.records[i]? = some record → record.nonce = UInt16.ofNat i ∧
    Looked record.nonce (rateProbePayload record.profile record.nonce) record.answered
      record.examined

theorem calibrating_start (port : CalibrationPort) : Calibrating port .start where
  reading := ⟨rfl, rfl, fun _ hmem => absurd hmem List.not_mem_nil⟩
  idle := rfl
  looked := fun _ _ h => by cases h

/-- The probe function gives what the probes gave. -/
def AgreesOn (probe : RateProfile → UInt16 → Except IoError Bool) (records : List ProbeRecord) :
    Prop :=
  ∀ record ∈ records, probe record.profile record.nonce = .ok record.answered

theorem lookedAt_record {state waited : Calibration} (h : waited.records = state.records)
    (profile : RateProfile) (nonce : UInt16) (answered : Bool) :
    (waited.record profile nonce answered).lookedAt = state.lookedAt ++ waited.examined := by
  rw [Calibration.lookedAt, Calibration.record, h, List.flatMap_append, List.flatMap_singleton,
    Calibration.lookedAt]

theorem probeRateOnce_ok {profile : RateProfile} {state next : Calibration} {answered : Bool}
    (h : probeRateOnce port profile (UInt16.ofNat state.records.length) state =
      .ok (answered, next)) (hstate : Calibrating port state) :
    Calibrating port next ∧ ∃ examined, next.records = state.records ++
      [⟨profile, UInt16.ofNat state.records.length, answered, examined⟩] := by
  rw [probeRateOnce] at h
  cases hencode : encodeFrame .rateProbe (UInt16.ofNat state.records.length)
      (rateProbePayload profile (UInt16.ofNat state.records.length)) with
  | error error =>
    rw [hencode] at h
    cases h
  | ok encoded =>
    rw [hencode] at h
    cases hwrite : port.writeFramePaced state.records.length with
    | error error =>
      rw [hwrite] at h
      cases h
    | ok written =>
      rw [hwrite] at h
      dsimp only at h
      rcases hwait : waitForRateProbeAck (UInt16.ofNat state.records.length)
          (rateProbePayload profile (UInt16.ofNat state.records.length)) port
          (port.turnsInTime state.records.length) state with error | ⟨matched, waited⟩
      · rw [hwait] at h
        cases h
      rw [hwait] at h
      cases h
      have hlooked := looked_nil (UInt16.ofNat state.records.length)
        (rateProbePayload profile (UInt16.ofNat state.records.length))
      rw [← hstate.idle] at hlooked
      obtain ⟨hreading, hlooked', hrecords⟩ :=
        waitForRateProbeAck_ok hwait hstate.reading hlooked
      refine ⟨⟨⟨hreading.decoder, ?_, hreading.not_data⟩, rfl, ?_⟩, waited.examined, ?_⟩
      · have hall := hreading.frames
        rw [← List.append_assoc, ← lookedAt_record hrecords profile _ answered] at hall
        exact hall
      · intro i record hrecord
        rw [Calibration.record, hrecords] at hrecord
        dsimp only at hrecord
        rw [List.getElem?_append] at hrecord
        split_ifs at hrecord with hi
        · exact hstate.looked i record hrecord
        · have hlast : i - state.records.length = 0 := by
            by_contra hne
            rw [List.getElem?_singleton, if_neg hne] at hrecord
            cases hrecord
          have hi' : i = state.records.length := by omega
          subst hi'
          rw [Nat.sub_self, List.getElem?_singleton, if_pos rfl] at hrecord
          cases hrecord
          exact ⟨rfl, hlooked'⟩
      · rw [Calibration.record, hrecords]

theorem probeRateWithSleep_ok {profile : RateProfile} {successes found : UInt8} {nonce : UInt16}
    {attempts : ℕ} {state next : Calibration}
    (h : probeRateWithSleep port profile successes nonce state attempts = .ok (found, next))
    (hnonce : nonce = UInt16.ofNat state.records.length) (hstate : Calibrating port state) :
    Calibrating port next ∧ next.records.length = state.records.length + attempts ∧
      state.records <+: next.records ∧
      ∀ probe, AgreesOn probe next.records →
        probeRate probe profile successes nonce attempts = .ok found := by
  induction attempts generalizing successes nonce state with
  | zero =>
    cases h
    exact ⟨hstate, rfl, List.prefix_rfl, fun _ _ => rfl⟩
  | succ attempts ih =>
    rw [probeRateWithSleep] at h
    rcases hprobe : probeRateOnce port profile nonce state with error | ⟨answered, s⟩
    · rw [hprobe] at h
      cases h
    rw [hprobe] at h
    dsimp only at h
    rw [hnonce] at hprobe
    obtain ⟨hs, examined, hrecords⟩ := probeRateOnce_ok hprobe hstate
    have hlength : s.records.length = state.records.length + 1 := by
      rw [hrecords, List.length_append, List.length_singleton]
    have hnext : nonce + 1 = UInt16.ofNat s.records.length := by
      rw [hlength, hnonce]
      exact (UInt16.ofNat_add _ 1).symm
    obtain ⟨hdone, hcount, hslice, hagrees⟩ := ih h hnext hs
    refine ⟨hdone, ?_, ?_, fun probe hprobes => ?_⟩
    · rw [hcount, hlength, Nat.add_assoc, Nat.add_comm 1]
    · apply List.IsPrefix.trans _ hslice
      rw [hrecords]
      exact List.prefix_append _ _
    · have hmem : (⟨profile, nonce, answered, examined⟩ : ProbeRecord) ∈ next.records := by
        apply hslice.subset
        rw [hrecords, hnonce]
        exact List.mem_append_right _ (List.mem_singleton_self _)
      have hanswer := hprobes _ hmem
      dsimp only at hanswer
      rw [probeRate, hanswer]
      exact hagrees probe hprobes

theorem calibrateProfilesWithSleep_ok {mask : UInt16} {controller result : RateController}
    {nonce : UInt16} {profiles : List RateProfile} {state next : Calibration}
    (h : calibrateProfilesWithSleep port mask controller nonce state profiles = .ok (result, next))
    (hnonce : nonce = UInt16.ofNat state.records.length) (hstate : Calibrating port state) :
    Calibrating port next ∧
      next.records.length ≤ state.records.length + rateProbeAttempts * profiles.length ∧
      state.records <+: next.records ∧
      ∀ probe, AgreesOn probe next.records →
        calibrateProfiles probe mask controller nonce profiles = .ok result := by
  induction profiles generalizing controller nonce state with
  | nil =>
    cases h
    exact ⟨hstate, Nat.le_add_right _ _, List.prefix_rfl, fun _ _ => rfl⟩
  | cons profile profiles ih =>
    rw [calibrateProfilesWithSleep] at h
    have hmore : rateProbeAttempts * (profile :: profiles).length =
        rateProbeAttempts + rateProbeAttempts * profiles.length := by
      rw [List.length_cons, Nat.mul_add_one, Nat.add_comm]
    rw [hmore]
    by_cases hzero : mask &&& profileBit profile.id = 0
    · rw [if_pos hzero] at h
      obtain ⟨hdone, hcount, hslice, hagrees⟩ := ih h hnonce hstate
      refine ⟨hdone, hcount.trans ?_, hslice, fun probe hprobes => ?_⟩
      · exact Nat.add_le_add_left (Nat.le_add_left _ _) _
      · rw [calibrateProfiles, if_pos hzero]
        exact hagrees probe hprobes
    rw [if_neg hzero] at h
    rcases hprobes : probeRateWithSleep port profile 0 nonce state rateProbeAttempts with
      error | ⟨successes, s⟩
    · rw [hprobes] at h
      cases h
    rw [hprobes] at h
    dsimp only at h
    obtain ⟨hs, hcount, hslice, hagrees⟩ := probeRateWithSleep_ok hprobes hnonce hstate
    -- the calibration that goes no further than this profile
    have hlast : ∀ last, s = last → Calibrating port last ∧ last.records.length ≤
        state.records.length + (rateProbeAttempts + rateProbeAttempts * profiles.length) ∧
        state.records <+: last.records := by
      rintro last rfl
      refine ⟨hs, ?_, hslice⟩
      rw [hcount]
      exact Nat.add_le_add_left (Nat.le_add_right _ _) _
    split_ifs at h with hthree htwo hslowest
    · have hnext : nonce + UInt16.ofNat rateProbeAttempts = UInt16.ofNat s.records.length := by
        rw [hcount, hnonce]
        exact (UInt16.ofNat_add _ _).symm
      obtain ⟨hdone, hcount', hslice', hagrees'⟩ := ih h hnext hs
      refine ⟨hdone, ?_, hslice.trans hslice', fun probe hall => ?_⟩
      · rw [hcount, Nat.add_assoc] at hcount'
        exact hcount'
      · have hearlier : AgreesOn probe s.records := fun record hmem =>
          hall record (hslice'.subset hmem)
        rw [calibrateProfiles, if_neg hzero, hagrees probe hearlier]
        dsimp only
        rw [if_pos hthree]
        exact hagrees' probe hall
    · obtain ⟨hresult, hnext⟩ := Prod.mk.inj (Except.ok.inj h)
      obtain ⟨hdone, hle, hpre⟩ := hlast next hnext
      refine ⟨hdone, hle, hpre, fun probe hall => ?_⟩
      rw [← hnext] at hall
      rw [calibrateProfiles, if_neg hzero, hagrees probe hall]
      dsimp only
      rw [if_neg hthree, if_pos htwo, hresult]
    · obtain ⟨hresult, hnext⟩ := Prod.mk.inj (Except.ok.inj h)
      obtain ⟨hdone, hle, hpre⟩ := hlast next hnext
      refine ⟨hdone, hle, hpre, fun probe hall => ?_⟩
      rw [← hnext] at hall
      rw [calibrateProfiles, if_neg hzero, hagrees probe hall]
      dsimp only
      rw [if_neg hthree, if_neg htwo, if_neg hslowest, hresult]

theorem calibrateRateWithSleep_ok {mask : UInt16} {controller : RateController}
    {state : Calibration} (h : calibrateRateWithSleep port mask = .ok (controller, state)) :
    Calibrating port state ∧ state.records.length ≤ 32 ∧
      ∀ probe, AgreesOn probe state.records → calibrateRate probe mask = .ok controller := by
  unfold calibrateRateWithSleep at h
  rcases hwarmup : probeRateWithSleep port slowestProfile 0 0 .start rateWarmupAttempts with
    error | ⟨successes, s⟩
  · rw [hwarmup] at h
    cases h
  rw [hwarmup] at h
  dsimp only at h
  obtain ⟨hs, hcount, _, hagrees⟩ := probeRateWithSleep_ok hwarmup rfl (calibrating_start port)
  split_ifs at h with hnone
  have hnext : UInt16.ofNat rateWarmupAttempts = UInt16.ofNat s.records.length := by
    rw [hcount]
    rfl
  obtain ⟨hdone, hcount', hslice, hagrees'⟩ := calibrateProfilesWithSleep_ok h hnext hs
  refine ⟨hdone, ?_, fun probe hall => ?_⟩
  · have hprofiles : rateProfiles.length = 10 := rfl
    have hstart : Calibration.start.records.length = 0 := rfl
    rw [hcount, hprofiles, hstart] at hcount'
    exact hcount'
  · have hearlier : AgreesOn probe s.records := fun record hmem =>
      hall record (hslice.subset hmem)
    rw [calibrateRate, hagrees probe hearlier]
    dsimp only
    rw [if_neg hnone]
    exact hagrees' probe hall

def recordedProbe (records : List ProbeRecord) (profile : RateProfile) (nonce : UInt16) :
    Except IoError Bool :=
  .ok (records[nonce.toNat]?.elim false fun record =>
    decide (record.profile = profile) && record.answered)

theorem agreesOn_recordedProbe {state : Calibration} (h : Calibrating port state)
    (hfew : state.records.length ≤ 32) : AgreesOn (recordedProbe state.records) state.records := by
  intro record hmem
  obtain ⟨i, hrecord⟩ := List.getElem?_of_mem hmem
  have hi : i < state.records.length := (List.getElem?_eq_some_iff.mp hrecord).1
  have hnonce : record.nonce.toNat = i := by
    rw [(h.looked i record hrecord).1]
    exact UInt16.toNat_ofNat_of_lt' (lt_of_lt_of_le hi (hfew.trans (by decide)))
  rw [recordedProbe, hnonce, hrecord, Option.elim_some, decide_eq_true rfl, Bool.true_and]

theorem recordedProbe_true {records : List ProbeRecord} {profile : RateProfile} {nonce : UInt16}
    (h : recordedProbe records profile nonce = .ok true) :
    ∃ record, records[nonce.toNat]? = some record ∧ record.profile = profile ∧
      record.answered = true := by
  have hanswer := Except.ok.inj h
  cases hrecord : records[nonce.toNat]? with
  | none =>
    rw [hrecord] at hanswer
    cases hanswer
  | some record =>
    rw [hrecord, Option.elim_some, Bool.and_eq_true, decide_eq_true_eq] at hanswer
    exact ⟨record, rfl, hanswer⟩

theorem Calibrating.answer {state : Calibration} (h : Calibrating port state) {nonce : UInt16}
    {record : ProbeRecord} (hrecord : state.records[nonce.toNat]? = some record)
    (hanswered : record.answered = true) :
    ∃ frame ∈ framesRead port state.reads,
      Answers nonce (rateProbePayload record.profile nonce) frame := by
  obtain ⟨hnonce, hlooked⟩ := h.looked _ record hrecord
  rw [UInt16.ofNat_toNat] at hnonce
  rw [hnonce] at hlooked
  obtain ⟨frame, hmem, hanswers⟩ := hlooked.answered_iff.mp hanswered
  refine ⟨frame, ?_, hanswers⟩
  rw [← h.reading.frames]
  apply List.mem_append_left
  exact List.mem_flatMap.mpr ⟨record, List.mem_of_getElem? hrecord, hmem⟩

/-- Whatever the port does, a calibration that succeeds looked at the frames it read in their
order, each in one probe or not yet; no frame carried data. A probe counts as answered exactly when
an acknowledgement with its own number and payload is among its frames, and the rate is the one
that these answers select. Below the best profile all probes of a supported one were answered. -/
theorem calibrateRateWithSleep_answers {mask : UInt16} {controller : RateController}
    {state : Calibration} (h : calibrateRateWithSleep port mask = .ok (controller, state)) :
    (state.lookedAt ++ state.pendingFrames = framesRead port state.reads ∧
      ∀ frame ∈ framesRead port state.reads, frame.frameType ≠ .dataM2c) ∧
    (∀ (i : ℕ) record, state.records[i]? = some record → record.nonce = UInt16.ofNat i ∧
      (record.answered = true ↔ ∃ frame ∈ record.examined,
        Answers record.nonce (rateProbePayload record.profile record.nonce) frame)) ∧
    (state.records.length ≤ 32 ∧ AgreesOn (recordedProbe state.records) state.records ∧
      calibrateRate (recordedProbe state.records) mask = .ok controller) ∧
    ∀ profile ∈ rateProfiles, Supports mask profile.id → profile.id < controller.highestStable →
      ∀ k < rateProbeAttempts, ∃ frame ∈ framesRead port state.reads,
        Answers (UInt16.ofNat (rateWarmupAttempts +
            rateProbeAttempts * (supportedBelow mask profile.id).length + k))
          (rateProbePayload profile (UInt16.ofNat (rateWarmupAttempts +
            rateProbeAttempts * (supportedBelow mask profile.id).length + k))) frame := by
  obtain ⟨hstate, hfew, hagrees⟩ := calibrateRateWithSleep_ok h
  have hprobe := agreesOn_recordedProbe hstate hfew
  have hcalibrated := hagrees _ hprobe
  refine ⟨⟨?_, hstate.reading.not_data⟩, fun i record hrecord => ?_, ⟨hfew, hprobe, hcalibrated⟩,
    fun profile hmem hsupports hbelow k hk => ?_⟩
  · have hframes := hstate.reading.frames
    rwa [hstate.idle, List.nil_append] at hframes
  · obtain ⟨hnonce, hlooked⟩ := hstate.looked i record hrecord
    exact ⟨hnonce, hlooked.answered_iff⟩
  · have hpassed := (calibrateRate_spec hcalibrated).2 profile hmem hsupports hbelow k hk
    obtain ⟨record, hrecord, hprofile, hanswered⟩ := recordedProbe_true hpassed
    have hanswer := hstate.answer hrecord hanswered
    rwa [hprofile] at hanswer

/-- A port that answers the probes of the warmup and of the two slowest profiles, one a read, the
first two reads with one more acknowledgement each. -/
def echoingPort : CalibrationPort where
  writeFramePaced := fun _ => .ok ()
  turnsInTime := fun _ => 1
  read := fun read =>
    let nonce := UInt16.ofNat read
    let profile : RateProfile := if read < 5 then slowestProfile else { id := 1, interByteSleep := 7000 }
    .bytes (mcLinkFrameBytes 7 nonce 0 (rateProbePayload profile nonce) ++
      if read < 2 then mcLinkFrameBytes 7 99 0 [] else [])

theorem calibrateRateWithSleep_answers_echoing :
    ∃ controller state, calibrateRateWithSleep echoingPort 3 = .ok (controller, state) ∧
      (state.lookedAt ++ state.pendingFrames = framesRead echoingPort state.reads ∧
        ∀ frame ∈ framesRead echoingPort state.reads, frame.frameType ≠ .dataM2c) := by
  rcases h : calibrateRateWithSleep echoingPort 3 with error | ⟨controller, state⟩
  · have hok : (calibrateRateWithSleep echoingPort 3).isOk = true := by decide +kernel
    rw [h] at hok
    cases hok
  · exact ⟨controller, state, rfl, (calibrateRateWithSleep_answers h).1⟩

end StarrySky.Bridge
