import StarrySky.Bridge.RateRun
import StarrySky.Bridge.Session

/-! Retransmission after a timeout, `handle_retransmit_timeout` in `bridge/src/session.rs`. -/

namespace StarrySky.Bridge

inductive RetransmitTimeoutAction
  | none | retransmitted | reset
deriving DecidableEq, Repr

/-- A call: the times it reads from the clock, and how its write ends. -/
structure TimeoutCall where
  now : ℕ
  writtenAt : ℕ
  write : List UInt8 → RateProfile → Except IoError Unit

def handleRetransmitTimeout (sender : C2mSender) (rateController : RateController)
    (retransmitTimeout : ℕ) (call : TimeoutCall) :
    Except IoError RetransmitTimeoutAction × C2mSender × RateController :=
  match sender.retransmitIfDue call.now retransmitTimeout with
  | none => (.ok .none, sender, rateController)
  | some encoded =>
    let rateController := rateController.recordLoss
    if rateController.needsRecalibration then (.ok .reset, sender, rateController)
    else
      match call.write encoded rateController.activeProfile with
      | .error error => (.error error, sender, rateController)
      | .ok () => (.ok .retransmitted, sender.markRetransmitted call.writtenAt, rateController)

def timeoutActions (retransmitTimeout : ℕ) (sender : C2mSender)
    (rateController : RateController) :
    List TimeoutCall → List (Except IoError RetransmitTimeoutAction)
  | [] => []
  | call :: calls =>
    let (action, sender', rateController') :=
      handleRetransmitTimeout sender rateController retransmitTimeout call
    action :: timeoutActions retransmitTimeout sender' rateController' calls

/-- Every call finds the outstanding frame due. -/
def AllDue (retransmitTimeout : ℕ) (sender : C2mSender) (rateController : RateController) :
    List TimeoutCall → Prop
  | [] => True
  | call :: calls =>
    (sender.retransmitIfDue call.now retransmitTimeout).isSome ∧
      let (_, sender', rateController') :=
        handleRetransmitTimeout sender rateController retransmitTimeout call
      AllDue retransmitTimeout sender' rateController' calls

theorem handleRetransmitTimeout_due {sender : C2mSender} {rateController : RateController}
    {retransmitTimeout : ℕ} {call : TimeoutCall}
    (hdue : (sender.retransmitIfDue call.now retransmitTimeout).isSome) :
    ∃ action sender',
      handleRetransmitTimeout sender rateController retransmitTimeout call =
        (action, sender', rateController.record .loss) ∧
      ((rateController.record .loss).needsRecalibration → action = .ok .reset) ∧
      (¬(rateController.record .loss).needsRecalibration →
        action = .ok .retransmitted ∨ ∃ error, action = .error error) := by
  obtain ⟨encoded, hencoded⟩ := Option.isSome_iff_exists.mp hdue
  rw [handleRetransmitTimeout, hencoded]
  dsimp only
  by_cases hneeds : rateController.recordLoss.needsRecalibration
  · refine ⟨.ok .reset, sender, ?_, fun _ => rfl, fun hnot => absurd hneeds hnot⟩
    rw [if_pos hneeds]
    rfl
  · rw [if_neg hneeds]
    cases call.write encoded rateController.recordLoss.activeProfile with
    | error error => exact ⟨_, _, rfl, fun h => absurd h hneeds, fun _ => .inr ⟨error, rfl⟩⟩
    | ok _ => exact ⟨_, _, rfl, fun h => absurd h hneeds, fun _ => .inl rfl⟩

theorem Calibrated.length_supportedBelow {mask : UInt16} {start : RateController}
    (h : Calibrated mask start) :
    (supportedBelow start.supportedMask start.active).length =
      (supportedBelow (normalizeSupportedMask mask) start.highestStable).length - 1 := by
  rw [h.active, length_supportedBelow_highestSupportedBelow]
  obtain hzero | hmask := h.mask
  · rw [hzero, supportedBelow_zero, supportedBelow_zero]
  · rw [hmask]

theorem downshifts_le_concat (start : RateController) (events : List RateEvent)
    (event : RateEvent) : downshifts start events ≤ downshifts start (events ++ [event]) := by
  rw [downshifts_concat]
  exact Nat.le_add_right _ _

theorem RateRun.progress {start : RateController} {events : List RateEvent}
    (h : RateRun start events) (hslowest : Supports start.supportedMask 0)
    (hleft : downshifts start events <
      (supportedBelow start.supportedMask start.active).length) :
    3 * downshifts start (events ++ [.loss]) + trailingLosses (events ++ [.loss]) % 3 =
      3 * downshifts start events + trailingLosses events % 3 + 1 := by
  -- With a step left, a loss is one of the three before the next step down, or is it.
  have hbelow := h.below
  have hpos : 0 < (start.recordAll events).active := by
    rw [UInt8.lt_iff_toNat_lt, UInt8.toNat_zero, Nat.pos_iff_ne_zero]
    intro hzero
    have hactive : (start.recordAll events).active = 0 := UInt8.toNat_inj.mp hzero
    rw [hactive, supportedBelow_zero, List.length_nil] at hbelow
    omega
  have hdown := downshifts_concat start events .loss
  rw [← recordAll_concat] at hdown
  rw [trailingLosses_loss]
  obtain ⟨_, hthird, _, hnext⟩ | ⟨hother, hkeep⟩ := h.active_concat .loss
  · rw [hnext, if_pos (highestSupportedBelow_lt hslowest hpos)] at hdown
    omega
  · rw [hkeep, if_neg (UInt8.lt_irrefl _)] at hdown
    obtain hsuccess | hzero | hnot := hother
    · contradiction
    · rw [hzero] at hpos
      exact absurd hpos (UInt8.lt_irrefl _)
    · omega

theorem reset_mem_timeoutActions {mask : UInt16} {start : RateController}
    (hstart : Calibrated mask start) {events : List RateEvent} {retransmitTimeout : ℕ}
    {sender : C2mSender} {calls : List TimeoutCall}
    (htwo : 2 ≤ (supportedBelow start.supportedMask start.active).length)
    (hdue : AllDue retransmitTimeout sender (start.recordAll events) calls)
    (hfew : downshifts start events < 2)
    (hlong : 6 ≤ calls.length + (3 * downshifts start events + trailingLosses events % 3)) :
    .ok .reset ∈ timeoutActions retransmitTimeout sender (start.recordAll events) calls := by
  induction calls generalizing sender events with
  | nil =>
    rw [List.length_nil] at hlong
    omega
  | cons call calls ih =>
    obtain ⟨hfirst, hrest⟩ := hdue
    obtain ⟨action, sender', hhandle, hreset, _⟩ := handleRetransmitTimeout_due hfirst
    have hprogress := (hstart.rateRun events).progress hstart.slowest (hfew.trans_le htwo)
    rw [hhandle, ← recordAll_concat] at hrest
    rw [timeoutActions, hhandle, ← recordAll_concat]
    rw [← recordAll_concat, needsRecalibration_iff (hstart.rateRun _)] at hreset
    by_cases hneeds : 2 ≤ downshifts start (events ++ [.loss])
    · rw [hreset hneeds]
      exact List.mem_cons_self
    · refine List.mem_cons_of_mem _ (ih hrest (Nat.lt_of_not_le hneeds) ?_)
      rw [List.length_cons] at hlong
      omega

theorem reset_notMem_timeoutActions {mask : UInt16} {start : RateController}
    (hstart : Calibrated mask start) {events : List RateEvent} {retransmitTimeout : ℕ}
    {sender : C2mSender} {calls : List TimeoutCall}
    (hfew : (supportedBelow start.supportedMask start.active).length < 2)
    (hdue : AllDue retransmitTimeout sender (start.recordAll events) calls) :
    ∀ action ∈ timeoutActions retransmitTimeout sender (start.recordAll events) calls,
      action = .ok .retransmitted ∨ ∃ error, action = .error error := by
  induction calls generalizing sender events with
  | nil => exact fun _ hmem => absurd hmem List.not_mem_nil
  | cons call calls ih =>
    obtain ⟨hfirst, hrest⟩ := hdue
    obtain ⟨action, sender', hhandle, _, haction⟩ := handleRetransmitTimeout_due hfirst
    rw [hhandle, ← recordAll_concat] at hrest
    rw [timeoutActions, hhandle, ← recordAll_concat]
    -- a profile is lost with each step down, and there is one at most to lose
    have hbelow := (hstart.rateRun (events ++ [.loss])).below
    rw [← recordAll_concat, needsRecalibration_iff (hstart.rateRun _)] at haction
    intro other hmem
    rw [List.mem_cons] at hmem
    obtain rfl | htail := hmem
    · exact haction (by omega)
    · exact ih hrest other htail

/-- Calls one timeout apart, with writes that go through. -/
def timeoutCalls (retransmitTimeout start : ℕ) : ℕ → List TimeoutCall
  | 0 => []
  | n + 1 =>
    { now := start + retransmitTimeout, writtenAt := start + retransmitTimeout
      write := fun _ _ => .ok () } :: timeoutCalls retransmitTimeout (start + retransmitTimeout) n

theorem length_timeoutCalls (retransmitTimeout start n : ℕ) :
    (timeoutCalls retransmitTimeout start n).length = n := by
  induction n generalizing start with
  | zero => rfl
  | succ n ih => rw [timeoutCalls, List.length_cons, ih]

theorem allDue_timeoutCalls {retransmitTimeout start : ℕ} {sender : C2mSender}
    {outstanding : OutstandingC2m} (houtstanding : sender.outstanding = some outstanding)
    (hsent : outstanding.sentAt ≤ start) (rateController : RateController) (n : ℕ) :
    AllDue retransmitTimeout sender rateController (timeoutCalls retransmitTimeout start n) := by
  induction n generalizing start sender outstanding rateController with
  | zero => trivial
  | succ n ih =>
    have hdue : sender.retransmitIfDue (start + retransmitTimeout) retransmitTimeout =
        some outstanding.encoded := by
      rw [C2mSender.retransmitIfDue, houtstanding]
      dsimp only
      rw [if_neg (by omega), if_neg (by omega)]
    refine ⟨Option.isSome_iff_exists.mpr ⟨_, hdue⟩, ?_⟩
    rw [handleRetransmitTimeout, hdue]
    dsimp only
    split_ifs
    · exact ih houtstanding (hsent.trans (Nat.le_add_right _ _)) _
    · have hmarked : (sender.markRetransmitted (start + retransmitTimeout)).outstanding =
          some { outstanding with
            sentAt := start + retransmitTimeout
            retries :=
              if outstanding.retries = 0xff then 0xff else outstanding.retries + 1 } := by
        rw [C2mSender.markRetransmitted, houtstanding]
      exact ih hmarked le_rfl _

/-- Three supported profiles below the best one are what it takes: then six calls that find
the frame due reach a reset, whatever was before. With fewer, no call ever resets. -/
theorem timeouts_reset {probe : RateProfile → UInt16 → Except IoError Bool} {mask : UInt16}
    {start : RateController} (h : calibrateRate probe mask = .ok start)
    (history : List RateEvent) (retransmitTimeout : ℕ) (sender : C2mSender)
    (calls : List TimeoutCall)
    (hdue : AllDue retransmitTimeout sender (start.recordAll history) calls) :
    (3 ≤ (supportedBelow (normalizeSupportedMask mask) start.highestStable).length →
      6 ≤ calls.length →
        .ok .reset ∈ timeoutActions retransmitTimeout sender (start.recordAll history) calls) ∧
    ((supportedBelow (normalizeSupportedMask mask) start.highestStable).length < 3 →
      ∀ action ∈ timeoutActions retransmitTimeout sender (start.recordAll history) calls,
        action = .ok .retransmitted ∨ ∃ error, action = .error error) := by
  obtain ⟨hstart, _⟩ := calibrateRate_spec h
  have hlength := hstart.length_supportedBelow
  refine ⟨fun hthree hlong => ?_, fun hfew => ?_⟩
  · by_cases hbefore : downshifts start history < 2
    · exact reset_mem_timeoutActions hstart (by omega) hdue hbefore (by omega)
    · -- the losses of the history were enough
      cases calls with
      | nil => exact absurd hlong (by decide)
      | cons call calls =>
        obtain ⟨action, sender', hhandle, hreset, _⟩ := handleRetransmitTimeout_due hdue.1
        have hmore := downshifts_le_concat start history .loss
        rw [← recordAll_concat, needsRecalibration_iff (hstart.rateRun _)] at hreset
        rw [timeoutActions, hhandle, hreset (by omega)]
        exact List.mem_cons_self
  · exact reset_notMem_timeoutActions hstart (by omega) hdue

/-- A sender that has three bytes under way since time 0. -/
def awaitingSender : C2mSender :=
  ((C2mSender.new 497 512).pushTcpBytes [0x61, 0x62, 0x63]).sent 3 0

/-- Profiles 0 to 3 pass, profile 4 does not. -/
theorem timeouts_reset_three :
    .ok .reset ∈ timeoutActions 1000 awaitingSender
      (RateController.recordAll { highestStable := 3, active := 2, supportedMask := 0x3ff
                                  consecutiveLosses := 0, downshiftCount := 0 } [.loss, .success])
      (timeoutCalls 1000 0 6) := by
  have hcalibrated : calibrateRate (fun profile _ => .ok (profile.id < 4)) 0x3ff =
      .ok { highestStable := 3, active := 2, supportedMask := 0x3ff, consecutiveLosses := 0
            downshiftCount := 0 } := by rfl
  exact (timeouts_reset hcalibrated [.loss, .success] 1000 awaitingSender (timeoutCalls 1000 0 6)
    (allDue_timeoutCalls rfl (le_refl 0) _ 6)).1 (by decide) le_rfl

/-- Only the slowest profile passes: no number of losses leads to a reset. -/
theorem timeouts_neverReset :
    ¬∀ (mask : UInt16) (probe : RateProfile → UInt16 → Except IoError Bool)
      (start : RateController), calibrateRate probe mask = .ok start →
        ∀ history : List RateEvent, ∃ n, ∀ retransmitTimeout sender calls,
          AllDue retransmitTimeout sender (start.recordAll history) calls → n ≤ calls.length →
            .ok .reset ∈
              timeoutActions retransmitTimeout sender (start.recordAll history) calls := by
  intro hall
  have hcalibrated : calibrateRate (fun profile _ => .ok (profile.id = 0)) 0x3ff =
      .ok { highestStable := 0, active := 0, supportedMask := 0x3ff, consecutiveLosses := 0
            downshiftCount := 0 } := by rfl
  obtain ⟨n, hreset⟩ := hall 0x3ff _ _ hcalibrated []
  have hdue : ∀ controller, AllDue 1000 awaitingSender controller (timeoutCalls 1000 0 n) :=
    fun controller => allDue_timeoutCalls rfl (le_refl 0) controller n
  have hmem := hreset 1000 awaitingSender _ (hdue _) (length_timeoutCalls 1000 0 n).ge
  have hnever := @reset_notMem_timeoutActions 0x3ff _ (calibrateRate_spec hcalibrated).1 []
    1000 awaitingSender _ (by decide) (hdue _)
  obtain hother | ⟨error, herror⟩ := hnever _ hmem
  · exact absurd hother (by decide)
  · contradiction

end StarrySky.Bridge
