import StarrySky.Bridge.C2m

/-! The write rate of `bridge/src/rate.rs` and its calibration in
`bridge/src/rate_calibration.rs`. -/

namespace StarrySky.Bridge

/-- The pause between two bytes is in microseconds. -/
structure RateProfile where
  id : UInt8
  interByteSleep : ℕ
deriving DecidableEq, Repr

def slowestProfile : RateProfile := { id := 0, interByteSleep := 10000 }

def rateProfiles : List RateProfile :=
  [slowestProfile, { id := 1, interByteSleep := 7000 }, { id := 2, interByteSleep := 5000 },
    { id := 3, interByteSleep := 3000 }, { id := 4, interByteSleep := 2000 },
    { id := 5, interByteSleep := 1500 }, { id := 6, interByteSleep := 1250 },
    { id := 7, interByteSleep := 1000 }, { id := 8, interByteSleep := 750 },
    { id := 9, interByteSleep := 500 }]

structure RateController where
  highestStable : UInt8
  active : UInt8
  supportedMask : UInt16
  consecutiveLosses : UInt8
  downshiftCount : UInt8
deriving DecidableEq, Repr

def profileBit (id : UInt8) : UInt16 := 1 <<< id.toUInt16

def Supports (mask : UInt16) (id : UInt8) : Prop := mask &&& profileBit id ≠ 0

instance (mask : UInt16) (id : UInt8) : Decidable (Supports mask id) :=
  inferInstanceAs (Decidable (_ ≠ _))

def profileExists (id : UInt8) : Bool := rateProfiles.any fun profile => profile.id = id

def allProfileMask : UInt16 :=
  rateProfiles.foldl (fun mask profile => mask ||| profileBit profile.id) 0

def normalizeSupportedMask (supportedMask : UInt16) : UInt16 :=
  (supportedMask &&& allProfileMask) ||| 1

def highestSupportedBelow (stableId : UInt8) (supportedMask : UInt16) : UInt8 :=
  ((rateProfiles.reverse.find? fun profile =>
    profile.id < stableId ∧ Supports supportedMask profile.id).map RateProfile.id).getD 0

/-- `saturating_add(1)`. -/
def saturatingSucc (n : UInt8) : UInt8 := if n = 0xff then 0xff else n + 1

namespace RateController

def new : RateController where
  highestStable := 0
  active := 0
  supportedMask := allProfileMask
  consecutiveLosses := 0
  downshiftCount := 0

def markProfileStableWithMask (controller : RateController) (id : UInt8)
    (supportedMask : UInt16) : RateController :=
  if ¬profileExists id then controller
  else
    { highestStable := id
      active := highestSupportedBelow id (normalizeSupportedMask supportedMask)
      supportedMask := normalizeSupportedMask supportedMask
      consecutiveLosses := 0
      downshiftCount := 0 }

def recordLoss (controller : RateController) : RateController :=
  let losses := saturatingSucc controller.consecutiveLosses
  if losses < 3 then { controller with consecutiveLosses := losses }
  else if controller.active > 0 then
    { controller with
      consecutiveLosses := 0
      active := highestSupportedBelow controller.active controller.supportedMask
      downshiftCount := saturatingSucc controller.downshiftCount }
  else { controller with consecutiveLosses := 0 }

def recordSuccess (controller : RateController) : RateController :=
  { controller with consecutiveLosses := 0 }

def needsRecalibration (controller : RateController) : Bool := 2 ≤ controller.downshiftCount

def activeProfile (controller : RateController) : RateProfile :=
  (rateProfiles.find? fun profile => profile.id = controller.active).getD slowestProfile

end RateController

abbrev rateWarmupAttempts : ℕ := 2
abbrev rateProbeAttempts : ℕ := 3

section Calibration
variable (probe : RateProfile → UInt16 → Except IoError Bool)

/-- The probes of one profile, numbered on from `nonce`: how many were answered. What
`probe_rate_once` returns is the parameter `probe`. -/
def probeRate (profile : RateProfile) (successes : UInt8) (nonce : UInt16) :
    ℕ → Except IoError UInt8
  | 0 => .ok successes
  | attempts + 1 =>
    match probe profile nonce with
    | .error error => .error error
    | .ok answered =>
      probeRate profile (if answered then saturatingSucc successes else successes) (nonce + 1)
        attempts

/-- The loop of `calibrate_rate_with_sleep` over the profiles. -/
def calibrateProfiles (supportedMask : UInt16) (controller : RateController) (nonce : UInt16) :
    List RateProfile → Except IoError RateController
  | [] => .ok controller
  | profile :: profiles =>
    if supportedMask &&& profileBit profile.id = 0 then
      calibrateProfiles supportedMask controller nonce profiles
    else
      match probeRate probe profile 0 nonce rateProbeAttempts with
      | .error error => .error error
      | .ok successes =>
        if successes = 3 then
          calibrateProfiles supportedMask
            (controller.markProfileStableWithMask profile.id supportedMask)
            (nonce + UInt16.ofNat rateProbeAttempts) profiles
        else if successes = 2 then
          .ok (controller.markProfileStableWithMask profile.id supportedMask)
        else if profile.id = 0 then
          .error
            { kind := .timedOut
              message := "rate slowest profile failed sleep_us=" ++
                toString profile.interByteSleep ++ " successes=" ++ toString successes ++ "/" ++
                toString rateProbeAttempts }
        else .ok controller

def calibrateRate (supportedMask : UInt16) : Except IoError RateController :=
  match probeRate probe slowestProfile 0 0 rateWarmupAttempts with
  | .error error => .error error
  | .ok successes =>
    if successes = 0 then
      .error
        { kind := .timedOut
          message := "rate warmup failed at sleep_us=" ++ toString slowestProfile.interByteSleep }
    else
      calibrateProfiles probe supportedMask .new (UInt16.ofNat rateWarmupAttempts) rateProfiles

end Calibration

def supportedBelow (mask : UInt16) (bound : UInt8) : List UInt8 :=
  (rateProfiles.map RateProfile.id).filter fun id => id < bound ∧ Supports mask id

theorem rateProfiles_sorted : (rateProfiles.map RateProfile.id).Pairwise (· < ·) := by
  decide

theorem mem_supportedBelow {mask : UInt16} {bound id : UInt8} :
    id ∈ supportedBelow mask bound ↔ profileExists id ∧ id < bound ∧ Supports mask id := by
  simp only [supportedBelow, List.mem_filter, List.mem_map, decide_eq_true_eq, profileExists,
    List.any_eq_true]

theorem highestSupportedBelow_eq (stableId : UInt8) (mask : UInt16) :
    highestSupportedBelow stableId mask = (supportedBelow mask stableId).getLast?.getD 0 := by
  rw [highestSupportedBelow, ← List.head?_filter, List.filter_reverse, List.head?_reverse,
    supportedBelow, List.filter_map, List.getLast?_map]
  rfl

theorem filter_lt_getLast {ids : List UInt8} (h : ids.Pairwise (· < ·)) (hne : ids ≠ []) :
    ids.filter (· < ids.getLast hne) = ids.dropLast := by
  have hsplit := List.dropLast_concat_getLast hne
  rw [← hsplit, List.pairwise_append] at h
  have hbefore : ids.dropLast.filter (· < ids.getLast hne) = ids.dropLast := by
    rw [List.filter_eq_self]
    intro x hx
    exact decide_eq_true (h.2.2 x hx _ (List.mem_singleton_self _))
  conv_lhs =>
    arg 2
    rw [← hsplit]
  rw [List.filter_append, hbefore, List.filter_cons_of_neg (by simp [UInt8.lt_irrefl]), List.filter_nil,
    List.append_nil]

theorem supportedBelow_zero (mask : UInt16) : supportedBelow mask 0 = [] := by
  rw [List.eq_nil_iff_forall_not_mem]
  intro id hmem
  exact UInt8.not_lt_zero (mem_supportedBelow.mp hmem).2.1

theorem supportedBelow_highestSupportedBelow (mask : UInt16) (bound : UInt8) :
    supportedBelow mask (highestSupportedBelow bound mask) =
      (supportedBelow mask bound).dropLast := by
  -- A step down leaves the supported profiles but the one it goes to.
  rw [highestSupportedBelow_eq]
  by_cases hne : supportedBelow mask bound = []
  case pos => rw [hne, List.getLast?_nil, Option.getD_none, supportedBelow_zero, List.dropLast_nil]
  have hsorted : (supportedBelow mask bound).Pairwise (· < ·) := rateProfiles_sorted.filter _
  have hlast : (supportedBelow mask bound).getLast hne < bound :=
    (mem_supportedBelow.mp (List.getLast_mem hne)).2.1
  rw [List.getLast?_eq_some_getLast hne, Option.getD_some, ← filter_lt_getLast hsorted hne]
  generalize (supportedBelow mask bound).getLast hne = last at hlast ⊢
  rw [supportedBelow, supportedBelow, List.filter_filter]
  refine List.filter_congr fun id _ => ?_
  simp only [decide_eq_decide, ← Bool.decide_and]
  constructor
  · rintro ⟨hlt, hsupports⟩
    exact ⟨hlt, UInt8.lt_trans hlt hlast, hsupports⟩
  · rintro ⟨hlt, _, hsupports⟩
    exact ⟨hlt, hsupports⟩

theorem highestSupportedBelow_mem {mask : UInt16} {bound : UInt8}
    (hne : supportedBelow mask bound ≠ []) :
    highestSupportedBelow bound mask ∈ supportedBelow mask bound := by
  rw [highestSupportedBelow_eq, List.getLast?_eq_some_getLast hne]
  exact List.getLast_mem hne

theorem supportedBelow_ne_nil {mask : UInt16} {bound : UInt8} (hzero : Supports mask 0)
    (hpos : 0 < bound) : supportedBelow mask bound ≠ [] :=
  List.ne_nil_of_mem (mem_supportedBelow.mpr ⟨rfl, hpos, hzero⟩)

theorem isGreatest_highestSupportedBelow {mask : UInt16} {bound : UInt8}
    (hzero : Supports mask 0) (hpos : 0 < bound) :
    IsGreatest {id | profileExists id ∧ id < bound ∧ Supports mask id}
      (highestSupportedBelow bound mask) := by
  have hne := supportedBelow_ne_nil hzero hpos
  refine ⟨mem_supportedBelow.mp (highestSupportedBelow_mem hne), fun id hid => ?_⟩
  have hmem := mem_supportedBelow.mpr hid
  have hsorted : (supportedBelow mask bound).Pairwise (· < ·) := rateProfiles_sorted.filter _
  rw [highestSupportedBelow_eq, List.getLast?_eq_some_getLast hne, Option.getD_some]
  rw [← List.dropLast_concat_getLast hne, List.pairwise_append] at hsorted
  rw [← List.dropLast_concat_getLast hne, List.mem_append] at hmem
  obtain hbefore | hlast := hmem
  · exact UInt8.le_of_lt (hsorted.2.2 id hbefore _ (List.mem_singleton_self _))
  · exact UInt8.le_of_eq (List.mem_singleton.mp hlast)

theorem length_supportedBelow_highestSupportedBelow (mask : UInt16) (bound : UInt8) :
    (supportedBelow mask (highestSupportedBelow bound mask)).length =
      (supportedBelow mask bound).length - 1 := by
  -- Below the profile one step down lies one supported profile less.
  rw [supportedBelow_highestSupportedBelow, List.length_dropLast]

theorem length_supportedBelow_le (mask : UInt16) (bound : UInt8) :
    (supportedBelow mask bound).length ≤ 10 := List.length_filter_le _ _

end StarrySky.Bridge
