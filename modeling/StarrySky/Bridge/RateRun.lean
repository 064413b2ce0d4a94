import StarrySky.Bridge.Rate

/-! What calibration selects, and what losses and successes then make of it. -/

namespace StarrySky.Bridge

inductive RateEvent
  | loss | success
deriving DecidableEq, Repr

namespace RateController

def record (controller : RateController) : RateEvent → RateController
  | .loss => controller.recordLoss
  | .success => controller.recordSuccess

def recordAll (controller : RateController) (events : List RateEvent) : RateController :=
  events.foldl record controller

end RateController

/-- The losses since the last success, or since the calibration. -/
def trailingLosses (events : List RateEvent) : ℕ :=
  events.foldl (fun losses event => match event with
    | .loss => losses + 1
    | .success => 0) 0

/-- How often the active profile moved down. -/
def downshifts (controller : RateController) : List RateEvent → ℕ
  | [] => 0
  | event :: events =>
    (if (controller.record event).active < controller.active then 1 else 0) +
      downshifts (controller.record event) events

theorem recordAll_concat (controller : RateController) (events : List RateEvent)
    (event : RateEvent) :
    controller.recordAll (events ++ [event]) = (controller.recordAll events).record event :=
  List.foldl_concat _ _ _ _

theorem trailingLosses_loss (events : List RateEvent) :
    trailingLosses (events ++ [.loss]) = trailingLosses events + 1 := List.foldl_concat _ _ _ _

theorem trailingLosses_success (events : List RateEvent) :
    trailingLosses (events ++ [.success]) = 0 := List.foldl_concat _ _ _ _

theorem downshifts_concat (controller : RateController) (events : List RateEvent)
    (event : RateEvent) :
    downshifts controller (events ++ [event]) = downshifts controller events +
      if ((controller.recordAll events).record event).active <
        (controller.recordAll events).active then 1 else 0 := by
  induction events generalizing controller with
  | nil => exact Nat.add_comm _ _
  | cons first events ih =>
    rw [List.cons_append, downshifts, downshifts, ih, Nat.add_assoc]
    rfl

theorem toNat_saturatingSucc {n : UInt8} (h : n.toNat < 255) :
    (saturatingSucc n).toNat = n.toNat + 1 := by
  have hne : n ≠ 0xff := fun heq => by
    rw [heq] at h
    exact absurd h (by decide)
  have hone : (1 : UInt8).toNat = 1 := rfl
  rw [saturatingSucc, if_neg hne, UInt8.toNat_add, hone]
  omega

def RateController.downshifted (controller : RateController) : RateController :=
  { controller with
    consecutiveLosses := 0
    active := highestSupportedBelow controller.active controller.supportedMask
    downshiftCount := saturatingSucc controller.downshiftCount }

theorem recordLoss_cases (controller : RateController)
    (h : controller.consecutiveLosses.toNat < 3) :
    controller.consecutiveLosses.toNat < 2 ∧
      controller.recordLoss =
        { controller with consecutiveLosses := saturatingSucc controller.consecutiveLosses } ∨
    controller.consecutiveLosses.toNat = 2 ∧ 0 < controller.active ∧
      controller.recordLoss = controller.downshifted ∨
    controller.consecutiveLosses.toNat = 2 ∧ controller.active = 0 ∧
      controller.recordLoss = { controller with consecutiveLosses := 0 } := by
  have hnext : (saturatingSucc controller.consecutiveLosses).toNat =
      controller.consecutiveLosses.toNat + 1 := toNat_saturatingSucc (by omega)
  have hthree : (3 : UInt8).toNat = 3 := rfl
  have hcount : saturatingSucc controller.consecutiveLosses < 3 ↔
      controller.consecutiveLosses.toNat < 2 := by
    rw [UInt8.lt_iff_toNat_lt, hnext, hthree]
    exact Nat.succ_lt_succ_iff
  by_cases hfew : controller.consecutiveLosses.toNat < 2
  · refine .inl ⟨hfew, ?_⟩
    rw [RateController.recordLoss]
    exact if_pos (hcount.mpr hfew)
  · have htwo : controller.consecutiveLosses.toNat = 2 := by omega
    right
    rw [RateController.recordLoss]
    simp only [if_neg (hcount.not.mpr hfew)]
    by_cases hpos : 0 < controller.active
    · exact .inl ⟨htwo, hpos, if_pos hpos⟩
    · refine .inr ⟨htwo, ?_, if_neg hpos⟩
      exact UInt8.le_zero_iff.mp (UInt8.not_lt.mp hpos)

/-- A controller as calibration leaves it. -/
structure Calibrated (mask : UInt16) (controller : RateController) : Prop where
  active : controller.active =
    highestSupportedBelow controller.highestStable controller.supportedMask
  losses : controller.consecutiveLosses = 0
  shifts : controller.downshiftCount = 0
  slowest : Supports controller.supportedMask 0
  mask : controller.highestStable = 0 ∨ controller.supportedMask = normalizeSupportedMask mask

/-- What the controller is after the events, by what it was calibrated to. -/
structure RateRun (start : RateController) (events : List RateEvent) : Prop where
  mask : (start.recordAll events).supportedMask = start.supportedMask
  stable : (start.recordAll events).highestStable = start.highestStable
  losses : (start.recordAll events).consecutiveLosses.toNat = trailingLosses events % 3
  shifts : (start.recordAll events).downshiftCount.toNat = downshifts start events
  below : (supportedBelow start.supportedMask (start.recordAll events).active).length +
    downshifts start events = (supportedBelow start.supportedMask start.active).length
  active : (start.recordAll events).active = 0 ∨
    (start.recordAll events).active ∈ supportedBelow start.supportedMask start.highestStable

theorem RateRun.losses_lt {start : RateController} {events : List RateEvent}
    (h : RateRun start events) : (start.recordAll events).consecutiveLosses.toNat < 3 := by
  rw [h.losses]
  exact Nat.mod_lt _ (by decide)

theorem RateRun.keep {start : RateController} {events : List RateEvent} {event : RateEvent}
    {losses : UInt8} (h : RateRun start events)
    (hrecord : (start.recordAll events).record event =
      { start.recordAll events with consecutiveLosses := losses })
    (hlosses : losses.toNat = trailingLosses (events ++ [event]) % 3) :
    RateRun start (events ++ [event]) := by
  have hrun := recordAll_concat start events event
  have hdown := downshifts_concat start events event
  rw [hrecord] at hrun hdown
  rw [if_neg (UInt8.lt_irrefl _), Nat.add_zero] at hdown
  refine ⟨?_, ?_, ?_, ?_, ?_, ?_⟩
  · rw [hrun]
    exact h.mask
  · rw [hrun]
    exact h.stable
  · rw [hrun]
    exact hlosses
  · rw [hrun, hdown]
    exact h.shifts
  · rw [hrun, hdown]
    exact h.below
  · rw [hrun]
    exact h.active

theorem highestSupportedBelow_lt {mask : UInt16} {bound : UInt8} (hslowest : Supports mask 0)
    (hpos : 0 < bound) : highestSupportedBelow bound mask < bound :=
  (isGreatest_highestSupportedBelow hslowest hpos).1.2.1

theorem RateRun.downshift {start : RateController} {events : List RateEvent}
    (h : RateRun start events) (hslowest : Supports start.supportedMask 0)
    (hpos : 0 < (start.recordAll events).active)
    (hthird : (trailingLosses events + 1) % 3 = 0)
    (hrecord : (start.recordAll events).record .loss = (start.recordAll events).downshifted) :
    RateRun start (events ++ [.loss]) := by
  -- The third loss in a row, above the slowest profile.
  have hrun := recordAll_concat start events .loss
  have hdown := downshifts_concat start events .loss
  rw [hrecord] at hrun hdown
  have hactive : (start.recordAll events).downshifted.active =
      highestSupportedBelow (start.recordAll events).active start.supportedMask := by
    rw [RateController.downshifted, h.mask]
  have hlt := highestSupportedBelow_lt hslowest hpos
  rw [hactive, if_pos hlt] at hdown
  have hbelow := h.below
  have hlength := length_supportedBelow_highestSupportedBelow start.supportedMask
    (start.recordAll events).active
  have hne := List.length_pos_of_ne_nil (supportedBelow_ne_nil hslowest hpos)
  have hbound := length_supportedBelow_le start.supportedMask start.active
  have hshifts := h.shifts
  refine ⟨?_, ?_, ?_, ?_, ?_, ?_⟩
  · rw [hrun]
    exact h.mask
  · rw [hrun]
    exact h.stable
  · rw [hrun, trailingLosses_loss, hthird]
    rfl
  · rw [hrun, hdown, ← hshifts]
    exact toNat_saturatingSucc (by omega)
  · rw [hrun, hactive, hdown]
    omega
  · rw [hrun, hactive]
    have hmem := highestSupportedBelow_mem (supportedBelow_ne_nil hslowest hpos)
    rw [mem_supportedBelow] at hmem
    obtain hzero | hold := h.active
    · rw [hzero] at hpos
      exact absurd hpos (UInt8.lt_irrefl _)
    · right
      rw [mem_supportedBelow] at hold ⊢
      exact ⟨hmem.1, UInt8.lt_trans hlt hold.2.1, hmem.2.2⟩

theorem RateRun.record {start : RateController} {events : List RateEvent}
    (h : RateRun start events) (hslowest : Supports start.supportedMask 0) (event : RateEvent) :
    RateRun start (events ++ [event]) := by
  cases event with
  | success => exact h.keep rfl (by rw [trailingLosses_success]; rfl)
  | loss =>
    have hlosses := h.losses
    obtain ⟨hfew, hrecord⟩ | ⟨htwo, hpos, hrecord⟩ | ⟨htwo, _, hrecord⟩ :=
      recordLoss_cases _ h.losses_lt
    · refine h.keep hrecord ?_
      rw [trailingLosses_loss, toNat_saturatingSucc (by omega)]
      omega
    · exact h.downshift hslowest hpos (by omega) hrecord
    · refine h.keep hrecord ?_
      rw [trailingLosses_loss]
      exact (by omega : (trailingLosses events + 1) % 3 = 0).symm

theorem Calibrated.rateRun_nil {mask : UInt16} {start : RateController}
    (h : Calibrated mask start) : RateRun start [] where
  mask := rfl
  stable := rfl
  losses := congrArg UInt8.toNat h.losses
  shifts := congrArg UInt8.toNat h.shifts
  below := rfl
  active := by
    rw [RateController.recordAll, List.foldl_nil, h.active]
    by_cases hne : supportedBelow start.supportedMask start.highestStable = []
    · left
      rw [highestSupportedBelow_eq, hne]
      rfl
    · exact .inr (highestSupportedBelow_mem hne)

theorem Calibrated.rateRun {mask : UInt16} {start : RateController} (h : Calibrated mask start)
    (events : List RateEvent) : RateRun start events := by
  induction events using List.reverseRecOn with
  | nil => exact h.rateRun_nil
  | append_singleton events event ih => exact ih.record h.slowest event

section Calibration
variable {probe : RateProfile → UInt16 → Except IoError Bool}

/-- Every probe of the profile was answered. Before them come those of the warmup and of
the supported profiles below. -/
def PassedProbes (probe : RateProfile → UInt16 → Except IoError Bool) (mask : UInt16)
    (profile : RateProfile) : Prop :=
  ∀ k < rateProbeAttempts,
    probe profile (UInt16.ofNat (rateWarmupAttempts +
      rateProbeAttempts * (supportedBelow mask profile.id).length + k)) = .ok true

theorem probeRate_all {profile : RateProfile} {successes found : UInt8} {nonce attempts : ℕ}
    (hroom : successes.toNat + attempts < 256)
    (h : probeRate probe profile successes (UInt16.ofNat nonce) attempts = .ok found) :
    found.toNat ≤ successes.toNat + attempts ∧
      (found.toNat = successes.toNat + attempts →
        ∀ k < attempts, probe profile (UInt16.ofNat (nonce + k)) = .ok true) := by
  induction attempts generalizing successes nonce with
  | zero =>
    cases h
    exact ⟨le_rfl, fun _ k hk => absurd hk (Nat.not_lt_zero k)⟩
  | succ attempts ih =>
    have hnext : UInt16.ofNat nonce + 1 = UInt16.ofNat (nonce + 1) :=
      (UInt16.ofNat_add nonce 1).symm
    rw [probeRate] at h
    split at h
    case h_1 => contradiction
    case h_2 answered hprobe =>
      rw [hnext] at h
      cases answered with
      | false =>
        rw [if_neg Bool.false_ne_true] at h
        obtain ⟨hle, _⟩ := ih (by omega) h
        exact ⟨by omega, fun hall => absurd hall (by omega)⟩
      | true =>
        rw [if_pos rfl] at h
        have hsucc : (saturatingSucc successes).toNat = successes.toNat + 1 :=
          toNat_saturatingSucc (by omega)
        obtain ⟨hle, hrest⟩ := ih (by omega) h
        refine ⟨by omega, fun hall k hk => ?_⟩
        cases k with
        | zero => exact hprobe
        | succ k =>
          have htail := hrest (by omega) k (Nat.lt_of_succ_lt_succ hk)
          rwa [Nat.add_assoc, Nat.add_comm 1] at htail

theorem supports_iff_testBit {mask : UInt16} {id : UInt8} (h : profileExists id) :
    Supports mask id ↔ mask.toNat.testBit id.toNat = true := by
  have hbit : ∀ profile ∈ rateProfiles, (profileBit profile.id).toNat = 2 ^ profile.id.toNat := by
    decide
  obtain ⟨profile, hmem, hid⟩ := List.any_eq_true.mp h
  rw [← of_decide_eq_true hid, Supports, ne_eq, ← UInt16.toNat_inj, UInt16.toNat_and,
    hbit profile hmem, Nat.and_two_pow, UInt16.toNat_zero, Nat.mul_eq_zero]
  cases mask.toNat.testBit profile.id.toNat with
  | false => simp
  | true => simp

theorem supports_normalizeSupportedMask {mask : UInt16} {id : UInt8} (h : profileExists id) :
    Supports (normalizeSupportedMask mask) id ↔ id = 0 ∨ Supports mask id := by
  have hknown : allProfileMask.toNat = 2 ^ 10 - 1 := by decide
  have hone : (1 : UInt16).toNat = 1 := rfl
  have hlt : id.toNat < 10 := by
    have hall : ∀ profile ∈ rateProfiles, profile.id.toNat < 10 := by decide
    obtain ⟨profile, hmem, hid⟩ := List.any_eq_true.mp h
    rw [← of_decide_eq_true hid]
    exact hall profile hmem
  rw [supports_iff_testBit h, supports_iff_testBit h, normalizeSupportedMask, UInt16.toNat_or,
    UInt16.toNat_and, hknown, hone, Nat.testBit_or, Nat.testBit_and, Nat.testBit_two_pow_sub_one,
    decide_eq_true hlt, Bool.and_true, Bool.or_eq_true,
    Nat.testBit_one_eq_true_iff_self_eq_zero, ← UInt8.toNat_inj, UInt8.toNat_zero]
  exact or_comm

theorem calibrated_new (mask : UInt16) : Calibrated mask .new where
  active := by decide
  losses := rfl
  shifts := rfl
  slowest := by decide
  mask := .inl rfl

theorem calibrated_markProfileStable {mask : UInt16} {controller : RateController}
    (profile : RateProfile) (hmem : profile ∈ rateProfiles) :
    Calibrated mask (controller.markProfileStableWithMask profile.id mask) ∧
      (controller.markProfileStableWithMask profile.id mask).highestStable = profile.id := by
  have hexists : profileExists profile.id :=
    List.any_eq_true.mpr ⟨profile, hmem, decide_eq_true rfl⟩
  have hslowest : Supports (normalizeSupportedMask mask) 0 :=
    (supports_normalizeSupportedMask rfl).mpr (.inl rfl)
  rw [RateController.markProfileStableWithMask, if_neg (not_not.mpr hexists)]
  exact ⟨⟨rfl, rfl, rfl, hslowest, .inr rfl⟩, rfl⟩

theorem before_of_split {done profiles : List RateProfile} {profile : RateProfile}
    (hsplit : done ++ profile :: profiles = rateProfiles) :
    (∀ earlier ∈ done, earlier.id < profile.id) ∧
      ∀ later ∈ profile :: profiles, ¬later.id < profile.id := by
  have hsorted := rateProfiles_sorted
  rw [← hsplit, List.map_append, List.pairwise_append, List.map_cons, List.pairwise_cons] at hsorted
  refine ⟨fun earlier hmem => ?_, fun later hmem => ?_⟩
  · exact hsorted.2.2 _ (List.mem_map_of_mem hmem) _ List.mem_cons_self
  · rw [List.mem_cons] at hmem
    obtain rfl | hrest := hmem
    · exact UInt8.lt_irrefl _
    · exact UInt8.not_lt.mpr (UInt8.le_of_lt (hsorted.2.1.1 _ (List.mem_map_of_mem hrest)))

theorem supportedBelow_of_split {mask : UInt16} {done profiles : List RateProfile}
    {profile : RateProfile} (hsplit : done ++ profile :: profiles = rateProfiles) :
    supportedBelow mask profile.id =
      (done.map RateProfile.id).filter fun id => Supports mask id := by
  obtain ⟨hbefore, hafter⟩ := before_of_split hsplit
  rw [supportedBelow, ← hsplit, List.map_append, List.filter_append]
  have hnone : ((profile :: profiles).map RateProfile.id).filter
      (fun id => id < profile.id ∧ Supports mask id) = [] := by
    rw [List.filter_eq_nil_iff]
    intro id hmem hboth
    obtain ⟨later, hlater, rfl⟩ := List.mem_map.mp hmem
    exact hafter later hlater (of_decide_eq_true hboth).1
  rw [hnone, List.append_nil]
  refine List.filter_congr fun id hmem => ?_
  obtain ⟨earlier, hearlier, rfl⟩ := List.mem_map.mp hmem
  simp only [hbefore earlier hearlier, true_and]

/-- The probes that calibration makes up to a place in the table. -/
def probesDone (mask : UInt16) (done : List RateProfile) : ℕ :=
  rateWarmupAttempts +
    rateProbeAttempts * ((done.map RateProfile.id).filter fun id => Supports mask id).length

theorem probesDone_skip {mask : UInt16} {done : List RateProfile} {profile : RateProfile}
    (h : ¬Supports mask profile.id) : probesDone mask (done ++ [profile]) = probesDone mask done := by
  rw [probesDone, List.map_append, List.filter_append, List.map_singleton,
    List.filter_cons_of_neg (by simpa using h), List.filter_nil, List.append_nil, probesDone]

theorem probesDone_probed {mask : UInt16} {done : List RateProfile} {profile : RateProfile}
    (h : Supports mask profile.id) :
    probesDone mask (done ++ [profile]) = probesDone mask done + rateProbeAttempts := by
  rw [probesDone, List.map_append, List.filter_append, List.map_singleton,
    List.filter_cons_of_pos (by simpa using h), List.filter_nil, List.length_append,
    List.length_singleton, probesDone, Nat.mul_add_one, Nat.add_assoc]

theorem passedProbes_of_three {mask : UInt16} {done profiles : List RateProfile}
    {profile : RateProfile} (hsplit : done ++ profile :: profiles = rateProfiles)
    (h : probeRate probe profile 0 (UInt16.ofNat (probesDone mask done)) rateProbeAttempts =
      .ok 3) : PassedProbes probe mask profile := by
  rw [PassedProbes, supportedBelow_of_split hsplit]
  exact (probeRate_all (by decide) h).2 rfl

/-- Calibration marks a profile only when every supported one below it has passed. -/
theorem calibrateProfiles_spec {mask : UInt16} {done profiles : List RateProfile}
    {controller result : RateController} (hsplit : done ++ profiles = rateProfiles)
    (hcalibrated : Calibrated mask controller)
    (hpassed : ∀ profile ∈ done, Supports mask profile.id → PassedProbes probe mask profile)
    (hbelow : ∀ profile ∈ rateProfiles, Supports mask profile.id →
      profile.id < controller.highestStable → PassedProbes probe mask profile)
    (h : calibrateProfiles probe mask controller (UInt16.ofNat (probesDone mask done)) profiles =
      .ok result) :
    Calibrated mask result ∧ ∀ profile ∈ rateProfiles, Supports mask profile.id →
      profile.id < result.highestStable → PassedProbes probe mask profile := by
  induction profiles generalizing done controller with
  | nil =>
    cases h
    exact ⟨hcalibrated, hbelow⟩
  | cons profile profiles ih =>
    have hnext : (done ++ [profile]) ++ profiles = rateProfiles :=
      (List.append_cons _ _ _).symm.trans hsplit
    have hmem : profile ∈ rateProfiles := by
      rw [← hsplit]
      exact List.mem_append_right _ List.mem_cons_self
    rw [calibrateProfiles] at h
    by_cases hsupports : Supports mask profile.id
    case neg =>
      have hzero : mask &&& profileBit profile.id = 0 := not_not.mp hsupports
      rw [if_pos hzero, ← probesDone_skip hsupports] at h
      refine ih hnext hcalibrated (fun earlier hin hearlier => ?_) hbelow h
      rw [List.mem_append, List.mem_singleton] at hin
      obtain hdone | rfl := hin
      · exact hpassed earlier hdone hearlier
      · exact absurd hearlier hsupports
    case pos =>
      obtain ⟨hmarked, hstable⟩ := @calibrated_markProfileStable mask controller profile hmem
      -- the profiles below this one are those the loop has done
      have hmarkedBelow : ∀ below ∈ rateProfiles, Supports mask below.id →
          below.id < (controller.markProfileStableWithMask profile.id mask).highestStable →
            PassedProbes probe mask below := by
        intro below hin hbelowSupports hlt
        rw [hstable] at hlt
        rw [← hsplit, List.mem_append] at hin
        obtain hdone | hlater := hin
        · exact hpassed below hdone hbelowSupports
        · exact absurd hlt ((before_of_split hsplit).2 below hlater)
      rw [if_neg hsupports] at h
      split at h
      case h_1 => contradiction
      case h_2 successes hprobes =>
        split_ifs at h with hthree htwo hzero
        · subst hthree
          rw [← UInt16.ofNat_add, ← probesDone_probed hsupports] at h
          refine ih hnext hmarked (fun earlier hin hearlier => ?_) hmarkedBelow h
          rw [List.mem_append, List.mem_singleton] at hin
          obtain hdone | rfl := hin
          · exact hpassed earlier hdone hearlier
          · exact passedProbes_of_three hsplit hprobes
        · cases h
          exact ⟨hmarked, hmarkedBelow⟩
        · cases h
          exact ⟨hcalibrated, hbelow⟩

theorem calibrateRate_spec {mask : UInt16} {controller : RateController}
    (h : calibrateRate probe mask = .ok controller) :
    Calibrated mask controller ∧ ∀ profile ∈ rateProfiles, Supports mask profile.id →
      profile.id < controller.highestStable → PassedProbes probe mask profile := by
  rw [calibrateRate] at h
  split at h
  case h_1 => contradiction
  case h_2 successes _ =>
    split_ifs at h with hnone
    refine @calibrateProfiles_spec probe mask [] rateProfiles .new controller rfl
      (calibrated_new mask) (fun _ hin => absurd hin List.not_mem_nil) ?_ h
    exact fun _ _ _ hlt => absurd hlt UInt8.not_lt_zero

end Calibration

/-- What holds of the selected rate once the controller was calibrated and has seen the
events. -/
structure RateSafe (probe : RateProfile → UInt16 → Except IoError Bool) (mask : UInt16)
    (start : RateController) (events : List RateEvent) : Prop where
  /-- The slowest profile, or one that was tried and found good, below the best. -/
  selected : (start.recordAll events).activeProfile.id = 0 ∨
    Supports mask (start.recordAll events).activeProfile.id ∧
      PassedProbes probe mask (start.recordAll events).activeProfile ∧
      (start.recordAll events).activeProfile.id < (start.recordAll events).highestStable
  antitone : ∀ event, (start.recordAll (events ++ [event])).activeProfile.id ≤
    (start.recordAll events).activeProfile.id
  /-- Every third loss in a row is a step down, above the slowest profile. -/
  downshift : 0 < (start.recordAll events).activeProfile.id →
    (trailingLosses events + 1) % 3 = 0 →
      IsGreatest {id | profileExists id ∧ id < (start.recordAll events).activeProfile.id ∧
        Supports mask id} (start.recordAll (events ++ [.loss])).activeProfile.id
  /-- Nothing else moves it. -/
  stays : ∀ event, (event = .success ∨ (start.recordAll events).activeProfile.id = 0 ∨
      (trailingLosses events + 1) % 3 ≠ 0) →
    (start.recordAll (events ++ [event])).activeProfile = (start.recordAll events).activeProfile
  recalibration : (start.recordAll events).needsRecalibration ↔ 2 ≤ downshifts start events

theorem RateRun.profileExists_active {start : RateController} {events : List RateEvent}
    (h : RateRun start events) : profileExists (start.recordAll events).active := by
  obtain hzero | hmem := h.active
  · rw [hzero]
    rfl
  · exact (mem_supportedBelow.mp hmem).1

theorem activeProfile_of_exists {controller : RateController}
    (h : profileExists controller.active) :
    controller.activeProfile ∈ rateProfiles ∧ controller.activeProfile.id = controller.active := by
  obtain ⟨profile, hfind⟩ := Option.isSome_iff_exists.mp (List.find?_isSome.mpr
    (List.any_eq_true.mp h))
  have hfound := List.find?_some hfind
  rw [RateController.activeProfile, hfind, Option.getD_some]
  exact ⟨List.mem_of_find?_eq_some hfind, of_decide_eq_true hfound⟩

theorem activeProfile_congr {controller other : RateController}
    (h : controller.active = other.active) : controller.activeProfile = other.activeProfile := by
  rw [RateController.activeProfile, RateController.activeProfile, h]

theorem RateRun.active_concat {start : RateController} {events : List RateEvent}
    (h : RateRun start events) (event : RateEvent) :
    event = .loss ∧ (trailingLosses events + 1) % 3 = 0 ∧ 0 < (start.recordAll events).active ∧
      (start.recordAll (events ++ [event])).active =
        highestSupportedBelow (start.recordAll events).active start.supportedMask ∨
    (event = .success ∨ (start.recordAll events).active = 0 ∨
      (trailingLosses events + 1) % 3 ≠ 0) ∧
      (start.recordAll (events ++ [event])).active = (start.recordAll events).active := by
  rw [recordAll_concat]
  have hlosses := h.losses
  cases event with
  | success => exact .inr ⟨.inl rfl, rfl⟩
  | loss =>
    rw [RateController.record]
    obtain ⟨hfew, hrecord⟩ | ⟨htwo, hpos, hrecord⟩ | ⟨htwo, hzero, hrecord⟩ :=
      recordLoss_cases _ h.losses_lt
    · rw [hrecord]
      exact .inr ⟨.inr (.inr (by omega)), rfl⟩
    · rw [hrecord, RateController.downshifted, h.mask]
      exact .inl ⟨rfl, by omega, hpos, rfl⟩
    · rw [hrecord]
      exact .inr ⟨.inr (.inl hzero), rfl⟩

theorem Calibrated.supports_iff {mask : UInt16} {start : RateController}
    (h : Calibrated mask start) (hslowest : Supports mask 0) {events : List RateEvent}
    (hpos : 0 < (start.recordAll events).active) {id : UInt8} (hid : profileExists id) :
    Supports start.supportedMask id ↔ Supports mask id := by
  obtain hzero | hmask := h.mask
  · obtain hnone | hmem := (h.rateRun events).active
    · rw [hnone] at hpos
      exact absurd hpos (UInt8.lt_irrefl _)
    · rw [hzero, supportedBelow_zero] at hmem
      exact absurd hmem List.not_mem_nil
  · rw [hmask, supports_normalizeSupportedMask hid, or_iff_right_of_imp]
    rintro rfl
    exact hslowest

theorem needsRecalibration_iff {start : RateController} {events : List RateEvent}
    (h : RateRun start events) :
    (start.recordAll events).needsRecalibration ↔ 2 ≤ downshifts start events := by
  have htwo : (2 : UInt8).toNat = 2 := rfl
  rw [RateController.needsRecalibration, decide_eq_true_eq, UInt8.le_iff_toNat_le, h.shifts, htwo]

theorem calibrateRate_rateSafe {mask : UInt16} (hslowest : Supports mask 0)
    {probe : RateProfile → UInt16 → Except IoError Bool} {controller : RateController}
    (h : calibrateRate probe mask = .ok controller) (events : List RateEvent) :
    RateSafe probe mask controller events := by
  obtain ⟨hcalibrated, hpassed⟩ := calibrateRate_spec h
  have hrun := hcalibrated.rateRun events
  obtain ⟨hmem, hid⟩ := activeProfile_of_exists hrun.profileExists_active
  have hnext : ∀ event, (controller.recordAll (events ++ [event])).activeProfile.id =
      (controller.recordAll (events ++ [event])).active := fun event =>
    (activeProfile_of_exists (hcalibrated.rateRun _).profileExists_active).2
  refine ⟨?_, fun event => ?_, fun hpos hthird => ?_, fun event hevent => ?_,
    needsRecalibration_iff hrun⟩
  · rw [hid, hrun.stable]
    obtain hzero | hbelow := hrun.active
    · exact .inl hzero
    by_cases hpos : 0 < (controller.recordAll events).active
    · rw [mem_supportedBelow, hcalibrated.supports_iff hslowest hpos
        hrun.profileExists_active] at hbelow
      refine .inr ⟨hbelow.2.2, hpassed _ hmem ?_ ?_, hbelow.2.1⟩
      · rw [hid]
        exact hbelow.2.2
      · rw [hid]
        exact hbelow.2.1
    · exact .inl (UInt8.le_zero_iff.mp (UInt8.not_lt.mp hpos))
  · rw [hid, hnext]
    obtain ⟨_, _, hpos, hdown⟩ | ⟨_, hkeep⟩ := hrun.active_concat event
    · rw [hdown]
      exact UInt8.le_of_lt (highestSupportedBelow_lt hcalibrated.slowest hpos)
    · exact UInt8.le_of_eq hkeep
  · rw [hid] at hpos
    rw [hid, hnext]
    obtain ⟨_, _, _, hdown⟩ | ⟨hother, _⟩ := hrun.active_concat .loss
    · rw [hdown]
      have hset : {id | profileExists id ∧ id < (controller.recordAll events).active ∧
          Supports mask id} = {id | profileExists id ∧
            id < (controller.recordAll events).active ∧ Supports controller.supportedMask id} := by
        ext id
        refine and_congr_right fun hexists => and_congr_right fun _ => ?_
        exact (hcalibrated.supports_iff hslowest hpos hexists).symm
      rw [hset]
      exact isGreatest_highestSupportedBelow hcalibrated.slowest hpos
    · obtain hsuccess | hzero | hnot := hother
      · contradiction
      · rw [hzero] at hpos
        exact absurd hpos (UInt8.lt_irrefl _)
      · exact absurd hthird hnot
  · apply activeProfile_congr
    rw [hid] at hevent
    obtain ⟨hloss, hthird, hpos, _⟩ | ⟨_, hkeep⟩ := hrun.active_concat event
    · obtain hsuccess | hzero | hnot := hevent
      · rw [hsuccess] at hloss
        contradiction
      · rw [hzero] at hpos
        exact absurd hpos (UInt8.lt_irrefl _)
      · exact absurd hthird hnot
    · exact hkeep

/-- Profiles 0 to 3 pass, profile 4 does not; then four losses. -/
theorem calibrateRate_rateSafe_three :
    calibrateRate (fun profile _ => .ok (profile.id < 4)) 0x3ff =
        .ok { highestStable := 3, active := 2, supportedMask := 0x3ff, consecutiveLosses := 0
              downshiftCount := 0 } ∧
      RateSafe (fun profile _ => .ok (profile.id < 4)) 0x3ff
        { highestStable := 3, active := 2, supportedMask := 0x3ff, consecutiveLosses := 0
          downshiftCount := 0 } [.loss, .loss, .loss, .loss] :=
  ⟨by rfl, calibrateRate_rateSafe (by decide) (by rfl) _⟩

end StarrySky.Bridge
