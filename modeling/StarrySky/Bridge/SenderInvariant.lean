import StarrySky.Bridge.C2mFilter
import StarrySky.Bridge.Session

/-! What holds of a sender at any time, whatever its peer acknowledges. -/

namespace StarrySky.Bridge
open StarrySky.Base StarrySky.Link

inductive SenderOp
  | push (data : List UInt8)
  | pushFiltered (data : List UInt8)
  | send (now : ℕ)
  | retransmit (now timeout : ℕ)
  | markRetransmitted (now : ℕ)
  | reset (negotiatedPayload : ℕ) (credit : UInt16)
  | ack (ack credit : UInt16)

/-- A sender; as history, the bytes that came to the end of `pendingTcp` and those that left its
front, and what was negotiated and granted when the last frame was sent. -/
structure SenderRun where
  sender : C2mSender
  pushed : List UInt8
  removed : List UInt8
  sentPayload : ℕ
  sentCredit : UInt16

def SenderRun.start (negotiatedPayload : ℕ) (credit : UInt16) : SenderRun :=
  { sender := .new negotiatedPayload credit, pushed := [], removed := [], sentPayload := 0
    sentCredit := 0 }

def senderStep (run : SenderRun) : SenderOp → SenderRun
  | .push data =>
    { run with sender := run.sender.pushTcpBytes data, pushed := run.pushed ++ data }
  | .pushFiltered data =>
    let sender := (run.sender.pushFilteredTcpBytes data).1
    { run with
      sender, pushed := run.pushed ++ sender.pendingTcp.drop run.sender.pendingTcp.length }
  | .send now =>
    match sendNextFrame run.sender now with
    | .ok (some _, sender) =>
      { run with
        sender, sentPayload := run.sender.negotiatedPayload, sentCredit := run.sender.credit }
    | .ok (none, sender) => { run with sender }
    | .error _ => run
  | .retransmit _ _ => run
  | .markRetransmitted now => { run with sender := run.sender.markRetransmitted now }
  | .reset negotiatedPayload credit =>
    { run with sender := run.sender.resetLinkStatePreservingPending negotiatedPayload credit }
  | .ack ack credit =>
    match run.sender.handleAck ack credit with
    | .ok sender =>
      let left := run.sender.pendingTcp.length - sender.pendingTcp.length
      { run with sender, removed := run.removed ++ run.sender.pendingTcp.take left }
    | .error _ => { run with sender := { run.sender with credit } }

def senderRun : SenderRun → List SenderOp → SenderRun
  | run, [] => run
  | run, op :: ops => senderRun (senderStep run op) ops

/-- The frame in flight: its bytes are the first pending ones under the last number. -/
structure OutstandingValid (run : SenderRun) (outstanding : OutstandingC2m) : Prop where
  seq : outstanding.seq = run.sender.nextSeq - 1
  seq_ne : outstanding.seq ≠ 0xffff
  decodes : Link.decodeOne outstanding.encoded = .ok
    { frameType := .dataC2m, flags := 0, seq := run.sender.nextSeq - 1, ack := 0
      payload := run.sender.pendingTcp.take outstanding.payloadLen }
  pending : outstanding.payloadLen ≤ run.sender.pendingTcp.length
  pos : 1 ≤ outstanding.payloadLen
  bound : outstanding.payloadLen ≤
    min (min (max run.sentPayload 1) Link.firmwarePayloadCap) run.sentCredit.toNat

structure SenderInvariant (run : SenderRun) : Prop where
  conserved : run.removed ++ run.sender.pendingTcp = run.pushed
  outstanding : ∀ outstanding ∈ run.sender.outstanding, OutstandingValid run outstanding

/-- Bytes are added to the end, or they leave the front because the frame in flight is
acknowledged. -/
def MovesBytes (run : SenderRun) (op : SenderOp) (next : SenderRun) : Prop :=
  (next.removed = run.removed ∧ ∃ more, next.sender.pendingTcp = run.sender.pendingTcp ++ more ∧
    next.pushed = run.pushed ++ more) ∨
  ∃ outstanding credit, run.sender.outstanding = some outstanding ∧
    op = .ack (outstanding.seq + 1) credit ∧
    next.removed = run.removed ++ run.sender.pendingTcp.take outstanding.payloadLen ∧
    next.sender.pendingTcp = run.sender.pendingTcp.drop outstanding.payloadLen ∧
    next.pushed = run.pushed

theorem MovesBytes.conserved {run next : SenderRun} {op : SenderOp} (h : MovesBytes run op next)
    (hrun : run.removed ++ run.sender.pendingTcp = run.pushed) :
    next.removed ++ next.sender.pendingTcp = next.pushed := by
  rcases h with ⟨hremoved, more, hpending, hpushed⟩ | ⟨_, _, _, _, hremoved, hpending, hpushed⟩
  · rw [hremoved, hpending, hpushed, ← hrun, List.append_assoc]
  · rw [hremoved, hpending, hpushed, ← hrun, List.append_assoc, List.take_append_drop]

theorem movesBytes_of_eq {run next : SenderRun} (op : SenderOp)
    (hremoved : next.removed = run.removed)
    (hpending : next.sender.pendingTcp = run.sender.pendingTcp)
    (hpushed : next.pushed = run.pushed) : MovesBytes run op next :=
  .inl ⟨hremoved, [], by rw [hpending, List.append_nil], by rw [hpushed, List.append_nil]⟩

theorem OutstandingValid.append {run next : SenderRun} {outstanding : OutstandingC2m}
    (h : OutstandingValid run outstanding) {more : List UInt8}
    (hpending : next.sender.pendingTcp = run.sender.pendingTcp ++ more)
    (hseq : next.sender.nextSeq = run.sender.nextSeq) (hpayload : next.sentPayload = run.sentPayload)
    (hcredit : next.sentCredit = run.sentCredit) : OutstandingValid next outstanding := by
  refine ⟨?_, h.seq_ne, ?_, ?_, h.pos, ?_⟩
  · rw [hseq]
    exact h.seq
  · rw [hseq, hpending, List.take_append_of_le_length h.pending]
    exact h.decodes
  · rw [hpending, List.length_append]
    exact Nat.le_add_right_of_le h.pending
  · rw [hpayload, hcredit]
    exact h.bound

theorem pushFilteredTcpBytes_appends (sender : C2mSender) (data : List UInt8) :
    ∃ out rest, (sender.pushFilteredTcpBytes data).1 =
      { sender with pendingTcp := sender.pendingTcp ++ out, minecraftFrameBuffer := rest } :=
  drainLoop_appends { sender with minecraftFrameBuffer := sender.minecraftFrameBuffer ++ data }
    { forwardedBytes := 0, droppedMovementFrames := 0, bufferedBytes := 0 }

theorem handleAck_cases {run : SenderRun} (h : SenderInvariant run) (ack credit : UInt16) :
    (∀ outstanding ∈ run.sender.outstanding, ack ≠ outstanding.seq + 1) ∧
      run.sender.handleAck ack credit = .ok { run.sender with credit } ∨
    ∃ outstanding, run.sender.outstanding = some outstanding ∧ ack = outstanding.seq + 1 ∧
      outstanding.payloadLen ≤ run.sender.pendingTcp.length ∧
      run.sender.handleAck ack credit = .ok { run.sender with
        pendingTcp := run.sender.pendingTcp.drop outstanding.payloadLen, outstanding := none
        credit } := by
  rw [C2mSender.handleAck]
  cases houtstanding : run.sender.outstanding with
  | none => exact .inl ⟨nofun, by simp only [houtstanding]⟩
  | some outstanding =>
    simp only [houtstanding]
    by_cases hack : ack = outstanding.seq + 1
    · have hpending := (h.outstanding outstanding houtstanding).pending
      refine .inr ⟨outstanding, rfl, hack, hpending, ?_⟩
      rw [if_neg (not_not.mpr hack), if_neg (Nat.not_lt.mpr hpending)]
    · refine .inl ⟨?_, if_pos hack⟩
      intro o ho
      rwa [← Option.some.inj ho]

theorem SenderInvariant.send {run : SenderRun} (h : SenderInvariant run) (now : ℕ) :
    SenderInvariant (senderStep run (.send now)) ∧
      MovesBytes run (.send now) (senderStep run (.send now)) := by
  rw [senderStep]
  rcases sendNextFrame_cases run.sender now with
    ⟨_, hsend⟩ | ⟨_, _, hsend⟩ | ⟨n, hlen, hseq, hsend⟩
  · rw [hsend]
    exact ⟨h, movesBytes_of_eq _ rfl rfl rfl⟩
  · rw [hsend]
    exact ⟨h, movesBytes_of_eq _ rfl rfl rfl⟩
  · rw [hsend]
    obtain ⟨_, hpos, hpending, hcredit, hpayload, hmax⟩ := nextPayloadLen_eq_some hlen
    refine ⟨⟨h.conserved, ?_⟩, movesBytes_of_eq _ rfl rfl rfl⟩
    intro outstanding houtstanding
    rw [← Option.some.inj houtstanding]
    have hnext : run.sender.nextSeq + 1 - 1 = run.sender.nextSeq := UInt16.add_sub_cancel _ _
    have hshort : (run.sender.pendingTcp.take n).length ≤ Link.maxPayload :=
      (List.length_take_le _ _).trans hmax
    refine ⟨hnext.symm, hseq, ?_, hpending, hpos, le_min (le_min hpayload hmax) hcredit⟩
    show Link.decodeOne (dataC2mBytes run.sender n) = .ok
      { frameType := .dataC2m, flags := 0, seq := run.sender.nextSeq + 1 - 1, ack := 0
        payload := run.sender.pendingTcp.take n }
    rw [hnext, dataC2mBytes, Link.decodeOne_mcLinkFrameBytes hshort]
    rfl

theorem SenderInvariant.ack {run : SenderRun} (h : SenderInvariant run) (ack credit : UInt16) :
    SenderInvariant (senderStep run (.ack ack credit)) ∧
      MovesBytes run (.ack ack credit) (senderStep run (.ack ack credit)) := by
  rw [senderStep]
  rcases handleAck_cases h ack credit with
    ⟨_, hack⟩ | ⟨outstanding, houtstanding, hseq, hpending, hack⟩
  · rw [hack]
    dsimp only
    rw [Nat.sub_self, List.take_zero, List.append_nil]
    refine ⟨⟨h.conserved, ?_⟩, movesBytes_of_eq _ rfl rfl rfl⟩
    intro outstanding houtstanding
    exact (h.outstanding outstanding houtstanding).append (List.append_nil _).symm rfl rfl rfl
  · rw [hack]
    dsimp only
    have hleft : run.sender.pendingTcp.length -
        (run.sender.pendingTcp.drop outstanding.payloadLen).length = outstanding.payloadLen := by
      rw [List.length_drop, Nat.sub_sub_self hpending]
    rw [hleft]
    refine ⟨⟨?_, nofun⟩, .inr ⟨outstanding, credit, houtstanding, by rw [hseq], rfl, rfl, rfl⟩⟩
    rw [List.append_assoc, List.take_append_drop]
    exact h.conserved

theorem SenderInvariant.step {run : SenderRun} (h : SenderInvariant run) (op : SenderOp) :
    SenderInvariant (senderStep run op) ∧ MovesBytes run op (senderStep run op) := by
  cases op with
  | push data =>
    have hmoves : MovesBytes run (.push data) (senderStep run (.push data)) :=
      .inl ⟨rfl, data, rfl, rfl⟩
    refine ⟨⟨hmoves.conserved h.conserved, ?_⟩, hmoves⟩
    intro outstanding houtstanding
    exact (h.outstanding outstanding houtstanding).append rfl rfl rfl rfl
  | pushFiltered data =>
    obtain ⟨out, rest, hpush⟩ := pushFilteredTcpBytes_appends run.sender data
    have hmoves : MovesBytes run (.pushFiltered data) (senderStep run (.pushFiltered data)) := by
      rw [senderStep, hpush]
      dsimp only
      rw [List.drop_left]
      exact .inl ⟨rfl, out, rfl, rfl⟩
    refine ⟨⟨hmoves.conserved h.conserved, ?_⟩, hmoves⟩
    rw [senderStep, hpush]
    intro outstanding houtstanding
    exact (h.outstanding outstanding houtstanding).append rfl rfl rfl rfl
  | send now => exact h.send now
  | retransmit now timeout => exact ⟨h, movesBytes_of_eq _ rfl rfl rfl⟩
  | markRetransmitted now =>
    rw [senderStep, C2mSender.markRetransmitted]
    cases houtstanding : run.sender.outstanding with
    | none => exact ⟨h, movesBytes_of_eq _ rfl rfl rfl⟩
    | some outstanding =>
      refine ⟨⟨h.conserved, ?_⟩, movesBytes_of_eq _ rfl rfl rfl⟩
      intro o ho
      rw [← Option.some.inj ho]
      have hvalid := h.outstanding outstanding houtstanding
      exact ⟨hvalid.seq, hvalid.seq_ne, hvalid.decodes, hvalid.pending, hvalid.pos, hvalid.bound⟩
  | reset negotiatedPayload credit =>
    exact ⟨⟨h.conserved, nofun⟩, movesBytes_of_eq _ rfl rfl rfl⟩
  | ack ack credit => exact h.ack ack credit

theorem SenderInvariant.run {run : SenderRun} (h : SenderInvariant run) (ops : List SenderOp) :
    SenderInvariant (senderRun run ops) := by
  induction ops generalizing run with
  | nil => exact h
  | cons op ops ih => exact ih (h.step op).1

theorem senderInvariant_start (negotiatedPayload : ℕ) (credit : UInt16) :
    SenderInvariant (.start negotiatedPayload credit) :=
  ⟨rfl, fun _ h => absurd h (Option.not_mem_none _)⟩

structure SenderGuarantees (run : SenderRun) : Prop where
  conserved : run.removed ++ run.sender.pendingTcp = run.pushed
  outstanding : ∀ outstanding ∈ run.sender.outstanding, OutstandingValid run outstanding
  noError : ∀ ack credit, ∃ sender, run.sender.handleAck ack credit = .ok sender
  ackZero : ∀ credit, run.sender.handleAck 0 credit = .ok { run.sender with credit }
  movesBytes : ∀ op, MovesBytes run op (senderStep run op)

theorem senderRun_guarantees (negotiatedPayload : ℕ) (credit : UInt16) (ops : List SenderOp) :
    SenderGuarantees (senderRun (.start negotiatedPayload credit) ops) := by
  have h := (senderInvariant_start negotiatedPayload credit).run ops
  refine ⟨h.conserved, h.outstanding, ?_, ?_, fun op => (h.step op).2⟩
  · intro ack credit
    rcases handleAck_cases h ack credit with ⟨_, hack⟩ | ⟨_, _, _, _, hack⟩
    · exact ⟨_, hack⟩
    · exact ⟨_, hack⟩
  · intro credit
    rcases handleAck_cases h 0 credit with ⟨_, hack⟩ | ⟨outstanding, houtstanding, hzero, _, _⟩
    · exact hack
    · -- the number before 0 is never used
      have hlast : outstanding.seq = 0 - 1 := by
        rw [hzero, UInt16.add_sub_cancel]
      exact absurd hlast (h.outstanding outstanding houtstanding).seq_ne

end StarrySky.Bridge
