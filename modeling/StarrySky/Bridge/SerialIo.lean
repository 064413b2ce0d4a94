import StarrySky.Bridge.Rate

/-! Writing a frame to the serial port, `bridge/src/serial_io.rs`. The port is any state
machine that answers each call; times are milliseconds and delays microseconds. -/

namespace StarrySky.Bridge

universe u v
variable {π : Type u} {ε : Type v}

abbrev serialWriteBackpressureLimit : ℕ := 1000
abbrev controlFrameWriteChunkBytes : ℕ := 1
abbrev controlFrameWriteDelay : ℕ := 10000

/-- What `serial.write` returns. A call that would block comes with the readings of the clock
made after it: one that starts the measure of the backpressure and one that ends it. -/
inductive PortWrite (ε : Type v)
  | wrote (count : ℕ)
  | blocked (since now : ℕ)
  | failed (error : ε)

structure SerialPort (π : Type u) (ε : Type v) where
  write : π → List UInt8 → PortWrite ε × π
  flush : π → Except ε Unit × π

inductive WriteError (ε : Type v)
  | writeZero
  | timedOut
  | port (error : ε)

def WriteError.message (text : ε → String) : WriteError ε → String
  | writeZero => "failed to write link frame"
  | timedOut => "serial write backpressure limit exceeded"
  | port error => text error

/-- What a writer does, in order: bytes that the port takes, the millisecond that `write_frame`
waits when it would block, and the calls of `sleep` between the chunks. -/
inductive WireEvent
  | sent (bytes : List UInt8)
  | waited
  | slept (delay : ℕ)

def WireEvent.bytes : WireEvent → List UInt8
  | sent bytes => bytes
  | _ => []

def WireEvent.pause : WireEvent → ℕ
  | slept delay => delay
  | _ => 0

def sentBytes (trace : List WireEvent) : List UInt8 := trace.flatMap WireEvent.bytes

def sleptTime (trace : List WireEvent) : ℕ := (trace.map WireEvent.pause).sum

/-- A writer's trace, its result, if it returned, and the port after it. -/
structure Written (π : Type u) (ε : Type v) where
  trace : List WireEvent
  result : Option (Except (WriteError ε) Unit)
  port : π

def Written.after (events : List WireEvent) (written : Written π ε) : Written π ε :=
  { written with trace := events ++ written.trace }

def flushPort (serial : SerialPort π ε) (p : π) : Written π ε :=
  let flushed := serial.flush p
  { trace := [], result := some (flushed.1.mapError .port), port := flushed.2 }

/-- The loop of `write_frame`, of at most `fuel` calls of the port. -/
def writeFrameLoop (serial : SerialPort π ε) :
    ℕ → Option ℕ → List UInt8 → π → Written π ε
  | fuel, backpressureStarted, rest, p =>
    if rest = [] then flushPort serial p
    else
      match fuel with
      | 0 => { trace := [], result := none, port := p }
      | fuel + 1 =>
        match serial.write p rest with
        | (.wrote 0, p) => { trace := [], result := some (.error .writeZero), port := p }
        | (.wrote (count + 1), p) =>
          (writeFrameLoop serial fuel none (rest.drop (count + 1)) p).after
            [.sent (rest.take (count + 1))]
        | (.blocked since now, p) =>
          let blockedSince := backpressureStarted.getD since
          if now - blockedSince ≥ serialWriteBackpressureLimit then
            { trace := [], result := some (.error .timedOut), port := p }
          else (writeFrameLoop serial fuel (some blockedSince) rest p).after [.waited]
        | (.failed error, p) => { trace := [], result := some (.error (.port error)), port := p }

def writeFrame (serial : SerialPort π ε) (fuel : ℕ) (frame : List UInt8) (p : π) :
    Written π ε :=
  writeFrameLoop serial fuel none frame p

/-- The loop of `write_frame_paced`, with the bytes that are left. -/
def writePacedLoop (serial : SerialPort π ε) (fuel chunkBytes delay : ℕ) (rest : List UInt8)
    (p : π) : Written π ε :=
  if rest = [] then { trace := [], result := some (.ok ()), port := p }
  else
    let written := writeFrame serial fuel (rest.take (max chunkBytes 1)) p
    match written.result with
    | some (.ok ()) =>
      let left := rest.drop (max chunkBytes 1)
      let sleep := if left ≠ [] ∧ delay ≠ 0 then [WireEvent.slept delay] else []
      (writePacedLoop serial fuel chunkBytes delay left written.port).after
        (written.trace ++ sleep)
    | _ => written
termination_by rest.length
decreasing_by
  have := List.length_pos_of_ne_nil ‹rest ≠ []›
  rw [List.length_drop]
  omega

def writeFramePaced (serial : SerialPort π ε) (fuel : ℕ) (frame : List UInt8)
    (chunkBytes delay : ℕ) (p : π) : Written π ε :=
  writePacedLoop serial fuel chunkBytes delay frame p

def writeControlFrame (serial : SerialPort π ε) (fuel : ℕ) (frame : List UInt8) (p : π) :
    Written π ε :=
  writeFramePaced serial fuel frame controlFrameWriteChunkBytes controlFrameWriteDelay p

def writeDataFramePaced (serial : SerialPort π ε) (fuel : ℕ) (frame : List UInt8)
    (profile : RateProfile) (p : π) : Written π ε :=
  writeFramePaced serial fuel frame 1 profile.interByteSleep p

@[simp] theorem sentBytes_nil : sentBytes [] = [] := rfl

theorem sentBytes_append (t t' : List WireEvent) :
    sentBytes (t ++ t') = sentBytes t ++ sentBytes t' := List.flatMap_append

theorem sleptTime_append (t t' : List WireEvent) :
    sleptTime (t ++ t') = sleptTime t + sleptTime t' := by
  rw [sleptTime, List.map_append, List.sum_append]
  rfl

/-- No event sends nothing. -/
def SendsBytes (trace : List WireEvent) : Prop := WireEvent.sent [] ∉ trace

/-- What a trace of `rest` sends, and whether it is all of it when the writer succeeds. -/
structure Sends (rest : List UInt8) (written : Written π ε) : Prop where
  sentBytes_prefix : sentBytes written.trace <+: rest
  sentBytes_of_ok : written.result = some (.ok ()) → sentBytes written.trace = rest
  sendsBytes : SendsBytes written.trace

theorem sends_of_trace_nil {rest : List UInt8} {written : Written π ε} (h : written.trace = [])
    (hresult : written.result = some (.ok ()) → rest = []) : Sends rest written where
  sentBytes_prefix := by
    rw [h]
    exact List.nil_prefix
  sentBytes_of_ok := by
    intro hok
    rw [h, hresult hok]
    rfl
  sendsBytes := by
    rw [SendsBytes, h]
    exact List.not_mem_nil

theorem Sends.after_waited {rest : List UInt8} {written : Written π ε} (h : Sends rest written) :
    Sends rest (written.after [.waited]) where
  sentBytes_prefix := h.sentBytes_prefix
  sentBytes_of_ok := h.sentBytes_of_ok
  sendsBytes := by
    intro hmem
    rcases List.mem_cons.mp hmem with heq | hmem
    · cases heq
    · exact h.sendsBytes hmem

theorem Sends.after_sent {bytes rest : List UInt8} {written : Written π ε}
    (h : Sends rest written) (hbytes : bytes ≠ []) :
    Sends (bytes ++ rest) (written.after [.sent bytes]) where
  sentBytes_prefix := by
    apply (List.prefix_append_right_inj bytes).mpr
    exact h.sentBytes_prefix
  sentBytes_of_ok := by
    intro hok
    exact congrArg (bytes ++ ·) (h.sentBytes_of_ok hok)
  sendsBytes := by
    intro hmem
    rcases List.mem_cons.mp hmem with heq | hmem
    · exact hbytes (WireEvent.sent.inj heq).symm
    · exact h.sendsBytes hmem

theorem sends_writeFrameLoop (serial : SerialPort π ε) (fuel : ℕ) (started : Option ℕ)
    (rest : List UInt8) (p : π) : Sends rest (writeFrameLoop serial fuel started rest p) := by
  induction fuel generalizing started rest p with
  | zero =>
    rw [writeFrameLoop]
    split_ifs with hrest
    · exact sends_of_trace_nil rfl fun _ => hrest
    · exact sends_of_trace_nil rfl fun h => by cases h
  | succ fuel ih =>
    rw [writeFrameLoop]
    split_ifs with hrest
    · exact sends_of_trace_nil rfl fun _ => hrest
    obtain ⟨call, p'⟩ := serial.write p rest
    cases call with
    | wrote count =>
      cases count with
      | zero => exact sends_of_trace_nil rfl fun h => by cases h
      | succ count =>
        have htake : rest.take (count + 1) ≠ [] := by simpa using hrest
        have hsent := (ih none (rest.drop (count + 1)) p').after_sent htake
        rw [List.take_append_drop] at hsent
        exact hsent
    | blocked since now =>
      dsimp only
      split_ifs
      · exact sends_of_trace_nil rfl fun h => by cases h
      · exact (ih _ rest p').after_waited
    | failed error => exact sends_of_trace_nil rfl fun h => by cases h

theorem sleptTime_writeFrameLoop (serial : SerialPort π ε) (fuel : ℕ) (started : Option ℕ)
    (rest : List UInt8) (p : π) :
    sleptTime (writeFrameLoop serial fuel started rest p).trace = 0 := by
  -- What `write_frame` waits is not a pause between chunks.
  induction fuel generalizing started rest p with
  | zero =>
    rw [writeFrameLoop]
    split_ifs
    · rfl
    · rfl
  | succ fuel ih =>
    rw [writeFrameLoop]
    split_ifs
    · rfl
    obtain ⟨call, p'⟩ := serial.write p rest
    cases call with
    | wrote count =>
      cases count with
      | zero => rfl
      | succ count =>
        exact (sleptTime_append [.sent _] _).trans
          ((Nat.zero_add _).trans (ih none (rest.drop (count + 1)) p'))
    | blocked since now =>
      dsimp only
      split_ifs
      · rfl
      · exact (sleptTime_append [.waited] _).trans ((Nat.zero_add _).trans (ih _ rest p'))
    | failed error => rfl

/-- After `sent` bytes and `slept` microseconds of pauses: when bytes go out, the delay has passed
once for each whole chunk before them. -/
def PacedFrom (chunkBytes delay : ℕ) (sent slept : ℕ) : List WireEvent → Prop
  | [] => True
  | .sent bytes :: trace =>
    slept = delay * (sent / chunkBytes) ∧
      PacedFrom chunkBytes delay (sent + bytes.length) slept trace
  | .waited :: trace => PacedFrom chunkBytes delay sent slept trace
  | .slept pause :: trace => PacedFrom chunkBytes delay sent (slept + pause) trace

theorem length_sentBytes_cons (bytes : List UInt8) (trace : List WireEvent) :
    (sentBytes (.sent bytes :: trace)).length = bytes.length + (sentBytes trace).length :=
  List.length_append

theorem sleptTime_sent (bytes : List UInt8) (trace : List WireEvent) :
    sleptTime (.sent bytes :: trace) = sleptTime trace := Nat.zero_add _

theorem sleptTime_waited (trace : List WireEvent) :
    sleptTime (.waited :: trace) = sleptTime trace := Nat.zero_add _

theorem sleptTime_slept (pause : ℕ) (trace : List WireEvent) :
    sleptTime (.slept pause :: trace) = pause + sleptTime trace := rfl

theorem pacedFrom_append {chunkBytes delay sent slept : ℕ} {t t' : List WireEvent} :
    PacedFrom chunkBytes delay sent slept (t ++ t') ↔
      PacedFrom chunkBytes delay sent slept t ∧
        PacedFrom chunkBytes delay (sent + (sentBytes t).length) (slept + sleptTime t) t' := by
  induction t generalizing sent slept with
  | nil => exact (and_iff_right trivial).symm
  | cons event t ih =>
    cases event with
    | sent bytes =>
      rw [length_sentBytes_cons, sleptTime_sent, ← Nat.add_assoc]
      exact (and_congr_right fun _ => ih).trans and_assoc.symm
    | waited =>
      rw [sleptTime_waited]
      exact ih
    | slept pause =>
      rw [sleptTime_slept, ← Nat.add_assoc]
      exact ih

theorem PacedFrom.sleptTime_eq {chunkBytes delay : ℕ} {trace before later : List WireEvent}
    {bytes : List UInt8} (h : PacedFrom chunkBytes delay 0 0 trace)
    (htrace : trace = before ++ .sent bytes :: later) :
    sleptTime before = delay * ((sentBytes before).length / chunkBytes) := by
  rw [htrace, pacedFrom_append, Nat.zero_add, Nat.zero_add] at h
  exact h.2.1

theorem pacedFrom_chunk {chunkBytes delay sent slept offset : ℕ} {trace : List WireEvent}
    (hpos : 0 < chunkBytes) (hsent : chunkBytes ∣ sent)
    (hslept : slept = delay * (sent / chunkBytes))
    (hlength : offset + (sentBytes trace).length ≤ chunkBytes) (htrace : SendsBytes trace)
    (hnone : sleptTime trace = 0) : PacedFrom chunkBytes delay (sent + offset) slept trace := by
  induction trace generalizing offset with
  | nil => trivial
  | cons event trace ih =>
    have hrest : SendsBytes trace := fun hmem => htrace (List.mem_cons_of_mem _ hmem)
    cases event with
    | sent bytes =>
      have hbytes : bytes ≠ [] := by
        rintro rfl
        exact htrace List.mem_cons_self
      have hcount := List.length_pos_of_ne_nil hbytes
      rw [length_sentBytes_cons] at hlength
      rw [sleptTime_sent] at hnone
      obtain ⟨chunks, rfl⟩ := hsent
      refine ⟨?_, ?_⟩
      · rw [Nat.mul_add_div hpos, Nat.div_eq_of_lt (by omega), Nat.add_zero]
        rwa [Nat.mul_div_cancel_left _ hpos] at hslept
      · rw [Nat.add_assoc]
        apply ih _ hrest hnone
        omega
    | waited =>
      rw [sleptTime_waited] at hnone
      exact ih hlength hrest hnone
    | slept pause =>
      rw [sleptTime_slept, Nat.add_eq_zero_iff] at hnone
      obtain ⟨rfl, hnone⟩ := hnone
      exact ih hlength hrest hnone

theorem Sends.pacedFrom {chunk : List UInt8} {written : Written π ε} (h : Sends chunk written)
    {chunkBytes delay sent slept : ℕ} (hnone : sleptTime written.trace = 0) (hpos : 0 < chunkBytes)
    (hlength : chunk.length ≤ chunkBytes) (hsent : chunkBytes ∣ sent)
    (hslept : slept = delay * (sent / chunkBytes)) :
    PacedFrom chunkBytes delay sent slept written.trace := by
  have hle := h.sentBytes_prefix.length_le.trans hlength
  show PacedFrom _ _ (sent + 0) _ _
  apply pacedFrom_chunk hpos hsent hslept _ h.sendsBytes hnone
  rwa [Nat.zero_add]

/-- What a paced writer of `rest` does, `sent` bytes and `slept` microseconds on. -/
structure SendsPaced (chunkBytes delay : ℕ) (rest : List UInt8) (written : Written π ε) : Prop
    extends Sends rest written where
  paced : ∀ sent slept, chunkBytes ∣ sent → slept = delay * (sent / chunkBytes) →
    PacedFrom chunkBytes delay sent slept written.trace
  sleptTime_of_ok : written.result = some (.ok ()) →
    sleptTime written.trace = delay * ((rest.length - 1) / chunkBytes)

theorem Sends.sendsPaced {chunk rest : List UInt8} {written : Written π ε} {chunkBytes : ℕ}
    (h : Sends chunk written) (hnone : sleptTime written.trace = 0) (hpos : 0 < chunkBytes)
    (hlength : chunk.length ≤ chunkBytes) (delay : ℕ) (hchunk : chunk <+: rest)
    (hok : written.result ≠ some (.ok ())) : SendsPaced chunkBytes delay rest written where
  sentBytes_prefix := h.sentBytes_prefix.trans hchunk
  sentBytes_of_ok := fun h => absurd h hok
  sendsBytes := h.sendsBytes
  paced := fun _ _ hsent hslept => h.pacedFrom hnone hpos hlength hsent hslept
  sleptTime_of_ok := fun h => absurd h hok

theorem SendsPaced.after_chunk {rest : List UInt8} {written next : Written π ε}
    {chunkBytes delay : ℕ} {sleep : List WireEvent} (hpos : 0 < chunkBytes) (hrest : rest ≠ [])
    (hsends : Sends (rest.take chunkBytes) written) (hnone : sleptTime written.trace = 0)
    (hsent : sentBytes written.trace = rest.take chunkBytes)
    (hsleep : sleep = if rest.drop chunkBytes ≠ [] ∧ delay ≠ 0 then [.slept delay] else [])
    (hnext : SendsPaced chunkBytes delay (rest.drop chunkBytes) next)
    (hdone : rest.drop chunkBytes = [] → next.trace = []) :
    SendsPaced chunkBytes delay rest (next.after (written.trace ++ sleep)) := by
  have hquiet : sentBytes sleep = [] ∧ SendsBytes sleep ∧
      ∀ sent slept, PacedFrom chunkBytes delay sent slept sleep := by
    rw [hsleep]
    split_ifs
    · exact ⟨rfl, by simp [SendsBytes], fun _ _ => trivial⟩
    · exact ⟨rfl, List.not_mem_nil, fun _ _ => trivial⟩
  have hpause : sleptTime sleep = if rest.drop chunkBytes ≠ [] then delay else 0 := by
    rw [hsleep]
    by_cases hleft : rest.drop chunkBytes = []
    · rw [if_neg (fun h => h.1 hleft), if_neg (not_not_intro hleft)]
      rfl
    · by_cases hdelay : delay = 0
      · rw [if_neg (fun h => h.2 hdelay), if_pos hleft, hdelay]
        rfl
      · rw [if_pos ⟨hleft, hdelay⟩, if_pos hleft]
        rfl
  have hlength := List.length_pos_of_ne_nil hrest
  have hbytes : sentBytes (next.after (written.trace ++ sleep)).trace =
      rest.take chunkBytes ++ sentBytes next.trace := by
    show sentBytes (written.trace ++ sleep ++ next.trace) = _
    rw [sentBytes_append, sentBytes_append, hsent, hquiet.1, List.append_nil]
  exact {
    sentBytes_prefix := by
      obtain ⟨later, hlater⟩ := hnext.sentBytes_prefix
      refine ⟨later, ?_⟩
      rw [hbytes, List.append_assoc, hlater, List.take_append_drop]
    sentBytes_of_ok := by
      intro h
      rw [hbytes, hnext.sentBytes_of_ok h, List.take_append_drop]
    sendsBytes := by
      intro hmem
      rcases List.mem_append.mp hmem with hmem | hmem
      · rcases List.mem_append.mp hmem with hmem | hmem
        · exact hsends.sendsBytes hmem
        · exact hquiet.2.1 hmem
      · exact hnext.sendsBytes hmem
    paced := by
      intro sent slept hdvd hslept
      have hfirst := hsends.pacedFrom hnone hpos (List.length_take_le _ _) hdvd hslept
      show PacedFrom chunkBytes delay sent slept (written.trace ++ sleep ++ next.trace)
      rw [pacedFrom_append, pacedFrom_append, sentBytes_append, hsent, hquiet.1, List.append_nil]
      refine ⟨⟨hfirst, hquiet.2.2 _ _⟩, ?_⟩
      by_cases hleft : rest.drop chunkBytes = []
      · rw [hdone hleft]
        trivial
      · have hfull : (rest.take chunkBytes).length = chunkBytes := by
          apply List.length_take_of_le
          by_contra hshort
          exact hleft (List.drop_eq_nil_of_le (Nat.le_of_not_le hshort))
        rw [hfull]
        apply hnext.paced _ _ (Nat.dvd_add hdvd (dvd_refl chunkBytes))
        rw [Nat.add_div_right _ hpos, Nat.mul_succ, sleptTime_append, hnone, hpause, if_pos hleft,
          hslept, Nat.zero_add]
    sleptTime_of_ok := by
      intro h
      show sleptTime (written.trace ++ sleep ++ next.trace) = _
      rw [sleptTime_append, sleptTime_append, hnone, hpause, Nat.zero_add]
      by_cases hleft : rest.drop chunkBytes = []
      · have hshort := List.drop_eq_nil_iff.mp hleft
        rw [if_neg (not_not_intro hleft), hdone hleft, Nat.div_eq_of_lt (by omega)]
        rfl
      · rw [if_pos hleft, hnext.sleptTime_of_ok h, List.length_drop]
        rw [List.drop_eq_nil_iff, Nat.not_le] at hleft
        -- the rest is one chunk and one byte or more longer
        have hchunks : (rest.length - 1) / chunkBytes =
            (rest.length - chunkBytes - 1) / chunkBytes + 1 := by
          rw [← Nat.add_div_right _ hpos]
          congr 1
          omega
        rw [hchunks, Nat.mul_succ, Nat.add_comm] }

theorem sendsPaced_writePacedLoop (serial : SerialPort π ε) (fuel chunkBytes delay : ℕ)
    (rest : List UInt8) (p : π) :
    SendsPaced (max chunkBytes 1) delay rest
      (writePacedLoop serial fuel chunkBytes delay rest p) := by
  have hpos : 0 < max chunkBytes 1 := Nat.lt_of_lt_of_le Nat.one_pos (le_max_right _ _)
  induction rest, p using writePacedLoop.induct serial fuel chunkBytes delay with
  | case1 p =>
    rw [writePacedLoop, if_pos rfl]
    exact { sends_of_trace_nil rfl fun _ => rfl with
      paced := fun _ _ _ _ => trivial
      sleptTime_of_ok := fun _ => by
        rw [List.length_nil, Nat.zero_sub, Nat.zero_div, Nat.mul_zero]
        rfl }
  | case2 rest p hrest written hok left ih =>
    have hsends : Sends (rest.take (max chunkBytes 1)) written :=
      sends_writeFrameLoop serial fuel none _ p
    have hdone : left = [] →
        (writePacedLoop serial fuel chunkBytes delay left written.port).trace = [] := by
      intro hleft
      rw [hleft, writePacedLoop, if_pos rfl]
    have hgoes := SendsPaced.after_chunk hpos hrest hsends
      (sleptTime_writeFrameLoop serial fuel none _ p) (hsends.sentBytes_of_ok hok) rfl ih hdone
    rw [writePacedLoop, if_neg hrest]
    dsimp only
    rw [show (writeFrame serial fuel (rest.take (max chunkBytes 1)) p).result =
      some (.ok ()) from hok]
    exact hgoes
  | case3 rest p hrest written hok =>
    have hsends := sends_writeFrameLoop serial fuel none (rest.take (max chunkBytes 1)) p
    have hstop : writePacedLoop serial fuel chunkBytes delay rest p = written := by
      rw [writePacedLoop, if_neg hrest]
      dsimp only
      split
      · exact absurd ‹_› hok
      · rfl
    rw [hstop]
    exact hsends.sendsPaced (sleptTime_writeFrameLoop serial fuel none _ p) hpos
      (List.length_take_le _ _) delay (List.take_prefix _ _) hok

/-- The port has a clock: the readings of a blocked call are taken in order, and the millisecond
slept after it has passed before the next call. -/
structure PortClock (serial : SerialPort π ε) (clock : π → ℕ) : Prop where
  since : ∀ {p buf since now p'}, serial.write p buf = (.blocked since now, p') →
    clock p ≤ since ∧ since ≤ now
  slept : ∀ {p buf since now p'}, serial.write p buf = (.blocked since now, p') → now < clock p'

/-- Calls that are left at most: each byte may wait up to the limit. -/
def callsLeft (clock : ℕ) (backpressureStarted : Option ℕ) (rest : List UInt8) : ℕ :=
  rest.length * (serialWriteBackpressureLimit + 2) +
    backpressureStarted.elim (serialWriteBackpressureLimit + 1)
      fun started => serialWriteBackpressureLimit - (clock - started)

theorem writeFrameLoop_returns {serial : SerialPort π ε} {clock : π → ℕ}
    (hclock : PortClock serial clock) {fuel : ℕ} {started : Option ℕ} {rest : List UInt8} {p : π}
    (hstarted : ∀ since ∈ started, since ≤ clock p)
    (hfuel : callsLeft (clock p) started rest < fuel) :
    (writeFrameLoop serial fuel started rest p).result ≠ none := by
  induction fuel generalizing started rest p with
  | zero => exact absurd hfuel (Nat.not_lt_zero _)
  | succ fuel ih =>
    rw [writeFrameLoop]
    split_ifs with hrest
    · exact Option.some_ne_none _
    have hlength := List.length_pos_of_ne_nil hrest
    rcases hcall : serial.write p rest with ⟨call, p'⟩
    cases call with
    | wrote count =>
      cases count with
      | zero => exact Option.some_ne_none _
      | succ count =>
        refine ih (by simp) ?_
        have hleft : (rest.drop (count + 1)).length + 1 ≤ rest.length := by
          rw [List.length_drop]
          omega
        have hbytes := Nat.mul_le_mul_right (serialWriteBackpressureLimit + 2) hleft
        rw [callsLeft] at hfuel ⊢
        rw [Nat.succ_mul] at hbytes
        rw [Option.elim_none]
        generalize serialWriteBackpressureLimit = limit at hfuel hbytes ⊢
        omega
    | blocked since now =>
      obtain ⟨hfirst, horder⟩ := hclock.since hcall
      have hnext := hclock.slept hcall
      dsimp only
      split_ifs with hlimit
      · exact Option.some_ne_none _
      refine ih ?_ ?_
      · intro from' hfrom
        cases started with
        | none =>
          obtain rfl := Option.some.inj hfrom
          exact horder.trans hnext.le
        | some start =>
          obtain rfl := Option.some.inj hfrom
          exact (hstarted start rfl).trans (hfirst.trans (horder.trans hnext.le))
      · -- the wait is longer, and it is not the limit yet
        rw [callsLeft] at hfuel ⊢
        cases started with
        | none =>
          rw [Option.elim_none] at hfuel
          rw [Option.getD_none] at hlimit ⊢
          rw [Option.elim_some]
          generalize serialWriteBackpressureLimit = limit at hfuel hlimit ⊢
          omega
        | some start =>
          have hstart := hstarted start rfl
          rw [Option.elim_some] at hfuel ⊢
          rw [Option.getD_some] at hlimit ⊢
          generalize serialWriteBackpressureLimit = limit at hfuel hlimit ⊢
          omega
    | failed error => exact Option.some_ne_none _

theorem writeFrame_returns {serial : SerialPort π ε} {clock : π → ℕ}
    (hclock : PortClock serial clock) {fuel : ℕ} {frame : List UInt8} (p : π)
    (hfuel : (frame.length + 1) * (serialWriteBackpressureLimit + 2) ≤ fuel) :
    (writeFrame serial fuel frame p).result ≠ none := by
  refine writeFrameLoop_returns hclock (by simp) ?_
  rw [Nat.succ_mul] at hfuel
  rw [callsLeft, Option.elim_none]
  omega

theorem writePacedLoop_returns {serial : SerialPort π ε} {clock : π → ℕ}
    (hclock : PortClock serial clock) {fuel chunkBytes delay : ℕ} {rest : List UInt8} (p : π)
    (hfuel : (rest.length + 1) * (serialWriteBackpressureLimit + 2) ≤ fuel) :
    (writePacedLoop serial fuel chunkBytes delay rest p).result ≠ none := by
  induction rest, p using writePacedLoop.induct serial fuel chunkBytes delay with
  | case1 p =>
    rw [writePacedLoop, if_pos rfl]
    exact Option.some_ne_none _
  | case2 rest p hrest written hok left ih =>
    rw [writePacedLoop, if_neg hrest]
    dsimp only
    rw [show (writeFrame serial fuel (rest.take (max chunkBytes 1)) p).result =
      some (.ok ()) from hok]
    apply ih
    refine le_trans (Nat.mul_le_mul_right _ ?_) hfuel
    rw [List.length_drop]
    omega
  | case3 rest p hrest written hok =>
    rw [writePacedLoop, if_neg hrest]
    dsimp only
    split
    · exact absurd ‹_› hok
    · refine writeFrame_returns hclock p (le_trans (Nat.mul_le_mul_right _ ?_) hfuel)
      exact Nat.succ_le_succ (List.length_take_le' _ _)

/-- What a paced write of a frame does. It returns; a part of the frame is on the wire, and when
it succeeds the whole of it; and before any bytes go out, the delay has been slept once for each
whole chunk that is out, whatever `write_frame` waited meanwhile. -/
structure PacedWrite (frame : List UInt8) (chunkBytes delay : ℕ) (written : Written π ε) :
    Prop where
  returns : written.result ≠ none
  sentBytes_prefix : sentBytes written.trace <+: frame
  of_ok : written.result = some (.ok ()) → sentBytes written.trace = frame ∧
    sleptTime written.trace = delay * ((frame.length - 1) / chunkBytes)
  paced : ∀ before bytes later, written.trace = before ++ .sent bytes :: later →
    sleptTime before = delay * ((sentBytes before).length / chunkBytes)

theorem pacedWrite_writePacedLoop {serial : SerialPort π ε} {clock : π → ℕ}
    (hclock : PortClock serial clock) {fuel : ℕ} {frame : List UInt8} (chunkBytes delay : ℕ)
    (p : π) (hfuel : (frame.length + 1) * (serialWriteBackpressureLimit + 2) ≤ fuel) :
    PacedWrite frame (max chunkBytes 1) delay
      (writePacedLoop serial fuel chunkBytes delay frame p) := by
  have hsends := sendsPaced_writePacedLoop serial fuel chunkBytes delay frame p
  have hpaced := hsends.paced 0 0 (dvd_zero _) (by rw [Nat.zero_div, Nat.mul_zero])
  exact {
    returns := writePacedLoop_returns hclock p hfuel
    sentBytes_prefix := hsends.sentBytes_prefix
    of_ok := fun h => ⟨hsends.sentBytes_of_ok h, hsends.sleptTime_of_ok h⟩
    paced := fun _ _ _ htrace => hpaced.sleptTime_eq htrace }

/-- The paced writes, those of control frames with a byte and ten milliseconds at a time, and those
of data frames with a byte and the pause of their profile. -/
theorem writeFramePaced_wire {serial : SerialPort π ε} {clock : π → ℕ}
    (hclock : PortClock serial clock) {fuel : ℕ} (frame : List UInt8) (p : π)
    (hfuel : (frame.length + 1) * (serialWriteBackpressureLimit + 2) ≤ fuel) :
    (∀ chunkBytes delay, PacedWrite frame (max chunkBytes 1) delay
      (writeFramePaced serial fuel frame chunkBytes delay p)) ∧
    PacedWrite frame 1 10000 (writeControlFrame serial fuel frame p) ∧
    ∀ profile : RateProfile, PacedWrite frame 1 profile.interByteSleep
      (writeDataFramePaced serial fuel frame profile p) :=
  ⟨fun chunkBytes delay => pacedWrite_writePacedLoop hclock chunkBytes delay p hfuel,
    pacedWrite_writePacedLoop hclock 1 10000 p hfuel,
    fun profile => pacedWrite_writePacedLoop hclock 1 profile.interByteSleep p hfuel⟩

/-- A port that takes two bytes, is busy for three milliseconds, takes the rest, and so on. -/
def hesitantPort : SerialPort ℕ Empty where
  write clock buf := if clock % 4 = 0 then (.wrote (min 2 buf.length), clock + 1)
    else (.blocked clock clock, clock + 1)
  flush clock := (.ok (), clock)

theorem portClock_hesitantPort : PortClock hesitantPort id where
  since := by
    intro p buf since now p' h
    dsimp only [hesitantPort] at h
    split_ifs at h
    · cases h
    · cases h
      exact ⟨le_rfl, le_rfl⟩
  slept := by
    intro p buf since now p' h
    dsimp only [hesitantPort] at h
    split_ifs at h
    · cases h
    · cases h
      exact Nat.lt_succ_self p

theorem writeFramePaced_wire_hesitantPort :
    (∀ chunkBytes delay, PacedWrite [0x02, 0x08, 0x00] (max chunkBytes 1) delay
      (writeFramePaced hesitantPort 4008 [0x02, 0x08, 0x00] chunkBytes delay 0)) ∧
    PacedWrite [0x02, 0x08, 0x00] 1 10000
      (writeControlFrame hesitantPort 4008 [0x02, 0x08, 0x00] 0) ∧
    ∀ profile : RateProfile, PacedWrite [0x02, 0x08, 0x00] 1 profile.interByteSleep
      (writeDataFramePaced hesitantPort 4008 [0x02, 0x08, 0x00] profile 0) :=
  writeFramePaced_wire portClock_hesitantPort [0x02, 0x08, 0x00] 0 (by decide)

end StarrySky.Bridge
