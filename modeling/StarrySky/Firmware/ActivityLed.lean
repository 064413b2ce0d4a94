import Mathlib

/-! The activity LED: `firmware/mc_activity_led.c` over `firmware/platform_activity_led.c` and
`firmware/platform_gpio0.c`. Ticks come at real times; the code sees them modulo `2 ^ 32`. -/

namespace StarrySky.Firmware

/-- The shadows of the two registers; as history, what was written to each of them. -/
structure PlatformGpio0 where
  ddrShadow : UInt32
  drShadow : UInt32
  dataWrites : UInt32
  ddrStores : List UInt32
  drStores : List UInt32
deriving DecidableEq

abbrev platformGpio0Bit0 : UInt32 := 1

def platformGpio0WriteDirection (gpio : PlatformGpio0) : PlatformGpio0 :=
  { gpio with ddrStores := gpio.ddrStores ++ [gpio.ddrShadow] }

def platformGpio0WriteData (gpio : PlatformGpio0) : PlatformGpio0 :=
  { gpio with drStores := gpio.drStores ++ [gpio.drShadow] }

def platformGpio0SetDirectionOutput (gpio : PlatformGpio0) (mask : UInt32) : PlatformGpio0 :=
  platformGpio0WriteDirection { gpio with ddrShadow := gpio.ddrShadow &&& ~~~mask }

def platformGpio0SetLevelMask (gpio : PlatformGpio0) (mask valueBits : UInt32) : PlatformGpio0 :=
  platformGpio0WriteData { gpio with
    drShadow := (gpio.drShadow &&& ~~~mask) ||| (valueBits &&& mask)
    dataWrites := gpio.dataWrites + 1 }

def platformActivityLedInit (gpio : PlatformGpio0) : PlatformGpio0 :=
  platformGpio0SetLevelMask (platformGpio0SetDirectionOutput gpio platformGpio0Bit0)
    platformGpio0Bit0 platformGpio0Bit0

def platformActivityLedSet (gpio : PlatformGpio0) (on : Bool) : PlatformGpio0 :=
  platformGpio0SetLevelMask gpio platformGpio0Bit0 (if on then 0 else platformGpio0Bit0)

inductive McActivityLedClass where
  | idle
  | low
  | medium
  | high
deriving DecidableEq

structure McActivityLed where
  sampleStartTicks : UInt32
  phaseStartTicks : UInt32
  windowBytes : UInt32
  trafficClass : McActivityLedClass
  on : Bool
  gpio : PlatformGpio0
deriving DecidableEq

def classifyBytes (bytes : UInt32) : McActivityLedClass :=
  if bytes = 0 then .idle
  else if bytes ≤ 64 then .low
  else if bytes ≤ 512 then .medium
  else .high

def setLed (led : McActivityLed) (on : Bool) : McActivityLed :=
  if led.on = on then led
  else { led with on := on, gpio := platformActivityLedSet led.gpio on }

/-- `MC_ACTIVITY_LED_SAMPLE_TICKS`. -/
def sampleTicks (ticksPerSecond : UInt32) : UInt32 := ticksPerSecond / 10

def classHalfPeriod (ticksPerSecond : UInt32) : McActivityLedClass → UInt32
  | .low => ticksPerSecond / 2
  | .medium => ticksPerSecond / 6
  | .high => ticksPerSecond / 12
  | .idle => 0

def applyClass (ticksPerSecond : UInt32) (led : McActivityLed) (nextClass : McActivityLedClass)
    (nowTicks : UInt32) : McActivityLed :=
  if nextClass = .idle then setLed { led with trafficClass := nextClass } false
  else if nextClass ≠ led.trafficClass then
    setLed { led with trafficClass := nextClass, phaseStartTicks := nowTicks } true
  else
    let halfPeriod := classHalfPeriod ticksPerSecond led.trafficClass
    let elapsedTicks := nowTicks - led.phaseStartTicks
    if halfPeriod > 0 ∧ elapsedTicks ≥ halfPeriod then
      let halfPeriods := elapsedTicks / halfPeriod
      let led := { led with phaseStartTicks := led.phaseStartTicks + halfPeriods * halfPeriod }
      if halfPeriods &&& 1 ≠ 0 then setLed led (!led.on) else led
    else led

def mcActivityLedInit (gpio : PlatformGpio0) (nowTicks : UInt32) : McActivityLed where
  sampleStartTicks := nowTicks
  phaseStartTicks := nowTicks
  windowBytes := 0
  trafficClass := .idle
  on := false
  gpio := platformActivityLedInit gpio

def mcActivityLedObserveBytes (led : McActivityLed) (bytes : UInt32) : McActivityLed :=
  { led with windowBytes := led.windowBytes + bytes }

def sampleEnds (ticksPerSecond : UInt32) (led : McActivityLed) (nowTicks : UInt32) : Bool :=
  nowTicks - led.sampleStartTicks ≥ sampleTicks ticksPerSecond

def mcActivityLedTick (ticksPerSecond : UInt32) (led : McActivityLed) (nowTicks : UInt32) :
    McActivityLed :=
  if sampleEnds ticksPerSecond led nowTicks then
    { applyClass ticksPerSecond { led with sampleStartTicks := nowTicks }
        (classifyBytes led.windowBytes) nowTicks with windowBytes := 0 }
  else applyClass ticksPerSecond led led.trafficClass nowTicks

/-- What the main loop does with the LED: a tick at a real time, or bytes seen. -/
inductive LedOp where
  | tick (time : ℕ)
  | observe (bytes : UInt32)
deriving DecidableEq

def ledStep (ticksPerSecond : UInt32) (led : McActivityLed) : LedOp → McActivityLed
  | .tick time => mcActivityLedTick ticksPerSecond led (UInt32.ofNat time)
  | .observe bytes => mcActivityLedObserveBytes led bytes

def ledRun (ticksPerSecond : UInt32) (led : McActivityLed) (ops : List LedOp) : McActivityLed :=
  ops.foldl (ledStep ticksPerSecond) led

/-- From a tick at time `last` on, every sample is of the class, and no tick is later than a whole
turn of the counter less one half period after the one before it. -/
def Steady (ticksPerSecond : UInt32) (trafficClass : McActivityLedClass) :
    McActivityLed → ℕ → List LedOp → Prop
  | _, _, [] => True
  | led, last, .observe bytes :: ops =>
    Steady ticksPerSecond trafficClass (mcActivityLedObserveBytes led bytes) last ops
  | led, last, .tick time :: ops =>
    last ≤ time ∧ time - last < 2 ^ 32 - (classHalfPeriod ticksPerSecond trafficClass).toNat ∧
      (sampleEnds ticksPerSecond led (UInt32.ofNat time) →
        classifyBytes led.windowBytes = trafficClass) ∧
      Steady ticksPerSecond trafficClass
        (mcActivityLedTick ticksPerSecond led (UInt32.ofNat time)) time ops

/-! The waveform. -/

def halfPeriodsSince (ticksPerSecond : UInt32) (trafficClass : McActivityLedClass) (t0 t : ℕ) : ℕ :=
  (t - t0) / (classHalfPeriod ticksPerSecond trafficClass).toNat

/-- After a tick at time `t` the phase starts at the last whole half period since `t0`, and the
LED is on after an even number of them. -/
structure Blinks (ticksPerSecond : UInt32) (trafficClass : McActivityLedClass) (t0 t : ℕ)
    (led : McActivityLed) : Prop where
  le : t0 ≤ t
  class_eq : led.trafficClass = trafficClass
  phase_eq : led.phaseStartTicks = UInt32.ofNat
    (t0 + halfPeriodsSince ticksPerSecond trafficClass t0 t *
      (classHalfPeriod ticksPerSecond trafficClass).toNat)
  on_eq : led.on = decide (Even (halfPeriodsSince ticksPerSecond trafficClass t0 t))

@[simp] theorem on_setLed (led : McActivityLed) (on : Bool) : (setLed led on).on = on := by
  rw [setLed]
  split_ifs with h
  · exact h
  · rfl

@[simp] theorem trafficClass_setLed (led : McActivityLed) (on : Bool) :
    (setLed led on).trafficClass = led.trafficClass := by
  rw [setLed]
  split_ifs <;> rfl

@[simp] theorem phaseStartTicks_setLed (led : McActivityLed) (on : Bool) :
    (setLed led on).phaseStartTicks = led.phaseStartTicks := by
  rw [setLed]
  split_ifs <;> rfl

theorem toNat_ofNat_sub_ofNat {p t : ℕ} (hle : p ≤ t) (hlt : t - p < 2 ^ 32) :
    (UInt32.ofNat t - UInt32.ofNat p).toNat = t - p := by
  -- The difference of two counter values is the real time between them, below a whole turn.
  rw [UInt32.toNat_sub, UInt32.toNat_ofNat', UInt32.toNat_ofNat']
  omega

theorem and_one_ne_zero_iff (n : UInt32) : n &&& 1 ≠ 0 ↔ ¬Even n.toNat := by
  have hbit : (n &&& 1).toNat = n.toNat % 2 := by
    rw [UInt32.toNat_and]
    exact Nat.and_one_is_mod n.toNat
  rw [ne_eq, ← UInt32.toNat_inj, hbit, Nat.even_iff]
  rfl

section
variable {ticksPerSecond : UInt32} {trafficClass : McActivityLedClass} {t0 t : ℕ}
  {led : McActivityLed}

theorem phase_le (t0 t half : ℕ) (hle : t0 ≤ t) : t0 + (t - t0) / half * half ≤ t := by
  have := Nat.div_mul_le_self (t - t0) half
  omega

theorem sub_phase_lt {t0 t half : ℕ} (hle : t0 ≤ t) (hhalf : 0 < half) :
    t - (t0 + (t - t0) / half * half) < half := by
  have hmod : (t - t0) % half < half := Nat.mod_lt _ hhalf
  have hdiv := Nat.div_add_mod' (t - t0) half
  omega

theorem div_phase_add {t0 t time half : ℕ} (hphase : t0 + (t - t0) / half * half ≤ time)
    (hhalf : 0 < half) :
    (time - t0) / half =
      (t - t0) / half + (time - (t0 + (t - t0) / half * half)) / half := by
  -- The half periods since `t0` are those up to the phase start and those since then.
  have hsplit : time - t0 =
      (time - (t0 + (t - t0) / half * half)) + (t - t0) / half * half := by omega
  rw [hsplit, Nat.add_mul_div_right _ _ hhalf, Nat.add_comm]

theorem applyClass_same (hclass : trafficClass ≠ .idle) (hled : led.trafficClass = trafficClass)
    {now : UInt32} {half elapsed : ℕ}
    (hhalf : (classHalfPeriod ticksPerSecond trafficClass).toNat = half)
    (helapsed : 0 < half → (now - led.phaseStartTicks).toNat = elapsed) :
    (applyClass ticksPerSecond led trafficClass now).trafficClass = trafficClass ∧
      (applyClass ticksPerSecond led trafficClass now).phaseStartTicks =
        led.phaseStartTicks + UInt32.ofNat (elapsed / half * half) ∧
      (applyClass ticksPerSecond led trafficClass now).on =
        (if Even (elapsed / half) then led.on else !led.on) := by
  -- A class that goes on only moves the phase by whole half periods.
  rw [applyClass, if_neg hclass, if_neg (not_not_intro hled.symm), hled]
  dsimp only
  by_cases hrun : classHalfPeriod ticksPerSecond trafficClass > 0 ∧
      now - led.phaseStartTicks ≥ classHalfPeriod ticksPerSecond trafficClass
  · have hpos : 0 < half := hhalf ▸ UInt32.lt_iff_toNat_lt.mp hrun.1
    have hperiods : (now - led.phaseStartTicks) / classHalfPeriod ticksPerSecond trafficClass =
        UInt32.ofNat (elapsed / half) := by
      rw [← helapsed hpos, ← hhalf, ← UInt32.toNat_div, UInt32.ofNat_toNat]
    have hticks : UInt32.ofNat (elapsed / half) * classHalfPeriod ticksPerSecond trafficClass =
        UInt32.ofNat (elapsed / half * half) := by
      rw [UInt32.ofNat_mul, ← hhalf, UInt32.ofNat_toNat]
    have hcount : (UInt32.ofNat (elapsed / half)).toNat = elapsed / half := by
      rw [← hperiods, UInt32.toNat_div, helapsed hpos, hhalf]
    have hodd := and_one_ne_zero_iff (UInt32.ofNat (elapsed / half))
    rw [hcount] at hodd
    rw [if_pos hrun, hperiods, hticks]
    by_cases heven : Even (elapsed / half)
    · rw [if_neg (fun hne => hodd.mp hne heven), if_pos heven]
      exact ⟨rfl, rfl, rfl⟩
    · rw [if_pos (hodd.mpr heven), if_neg heven]
      exact ⟨trafficClass_setLed .., phaseStartTicks_setLed .., on_setLed ..⟩
  · -- less than a half period since the phase start, or a class without one
    have hzero : elapsed / half = 0 := by
      rcases Nat.eq_zero_or_pos half with rfl | hpos
      · exact Nat.div_zero _
      · apply Nat.div_eq_of_lt
        rw [← helapsed hpos, ← hhalf]
        by_contra hge
        exact hrun ⟨UInt32.lt_iff_toNat_lt.mpr (hhalf.symm ▸ hpos),
          UInt32.le_iff_toNat_le.mpr (Nat.le_of_not_lt hge)⟩
    rw [if_neg hrun, hzero, Nat.zero_mul, if_pos Even.zero]
    exact ⟨hled, (UInt32.add_zero _).symm, rfl⟩

theorem applyClass_blinks (hclass : trafficClass ≠ .idle)
    (h : Blinks ticksPerSecond trafficClass t0 t led) {time : ℕ} (hle : t ≤ time)
    (hgap : time - t < 2 ^ 32 - (classHalfPeriod ticksPerSecond trafficClass).toNat) :
    Blinks ticksPerSecond trafficClass t0 time
      (applyClass ticksPerSecond led trafficClass (UInt32.ofNat time)) := by
  obtain ⟨ht0, hled, hphase, hon⟩ := h
  rw [halfPeriodsSince] at hphase hon
  generalize hhalf : (classHalfPeriod ticksPerSecond trafficClass).toNat = half at hgap hphase hon
  have hstart : t0 + (t - t0) / half * half ≤ t := phase_le t0 t half ht0
  have helapsed : 0 < half → (UInt32.ofNat time - led.phaseStartTicks).toNat =
      time - (t0 + (t - t0) / half * half) := by
    intro hpos
    have hrest := sub_phase_lt ht0 hpos
    rw [hphase]
    apply toNat_ofNat_sub_ofNat <;> omega
  obtain ⟨hclassNext, hphaseNext, honNext⟩ := applyClass_same hclass hled hhalf helapsed
  have hperiods : (time - t0) / half = (t - t0) / half +
      (time - (t0 + (t - t0) / half * half)) / half := by
    rcases Nat.eq_zero_or_pos half with rfl | hpos
    · simp only [Nat.div_zero]
    · exact div_phase_add (hstart.trans hle) hpos
  refine ⟨ht0.trans hle, hclassNext, ?_, ?_⟩
  · rw [hphaseNext, hphase, ← UInt32.ofNat_add, halfPeriodsSince, hhalf, hperiods, Nat.add_mul,
      Nat.add_assoc]
  · rw [honNext, hon, halfPeriodsSince, hhalf, hperiods]
    by_cases heven : Even ((time - (t0 + (t - t0) / half * half)) / half)
    · rw [if_pos heven]
      simp only [Nat.even_add, heven, iff_true]
    · rw [if_neg heven]
      simp only [Nat.even_add, heven, iff_false, decide_not]

theorem tick_blinks (hclass : trafficClass ≠ .idle)
    (h : Blinks ticksPerSecond trafficClass t0 t led) {time : ℕ} (hle : t ≤ time)
    (hgap : time - t < 2 ^ 32 - (classHalfPeriod ticksPerSecond trafficClass).toNat)
    (hsample : sampleEnds ticksPerSecond led (UInt32.ofNat time) →
      classifyBytes led.windowBytes = trafficClass) :
    Blinks ticksPerSecond trafficClass t0 time
      (mcActivityLedTick ticksPerSecond led (UInt32.ofNat time)) := by
  rw [mcActivityLedTick]
  by_cases hends : sampleEnds ticksPerSecond led (UInt32.ofNat time) = true
  · rw [if_pos hends, hsample hends]
    have hstart : Blinks ticksPerSecond trafficClass t0 t
        { led with sampleStartTicks := UInt32.ofNat time } :=
      ⟨h.le, h.class_eq, h.phase_eq, h.on_eq⟩
    obtain ⟨hle, hclassNext, hphase, hon⟩ := applyClass_blinks hclass hstart hle hgap
    exact ⟨hle, hclassNext, hphase, hon⟩
  · rw [if_neg hends, h.class_eq]
    exact applyClass_blinks hclass h hle hgap

def lastTick (last : ℕ) : List LedOp → ℕ
  | [] => last
  | .observe _ :: ops => lastTick last ops
  | .tick time :: ops => lastTick time ops

theorem lastTick_append_tick (last : ℕ) (ops : List LedOp) (time : ℕ) :
    lastTick last (ops ++ [.tick time]) = time := by
  induction ops generalizing last with
  | nil => rfl
  | cons op ops ih =>
    cases op with
    | observe bytes => exact ih last
    | tick earlier => exact ih earlier

theorem run_blinks (hclass : trafficClass ≠ .idle) {ops : List LedOp}
    (h : Blinks ticksPerSecond trafficClass t0 t led)
    (hsteady : Steady ticksPerSecond trafficClass led t ops) :
    Blinks ticksPerSecond trafficClass t0 (lastTick t ops) (ledRun ticksPerSecond led ops) := by
  induction ops generalizing led t with
  | nil => exact h
  | cons op ops ih =>
    cases op with
    | observe bytes => exact ih ⟨h.le, h.class_eq, h.phase_eq, h.on_eq⟩ hsteady
    | tick time =>
      obtain ⟨hle, hgap, hsample, hrest⟩ := hsteady
      exact ih (tick_blinks hclass h hle hgap hsample) hrest

theorem trafficClass_applyClass (ticksPerSecond : UInt32) (led : McActivityLed)
    (nextClass : McActivityLedClass) (now : UInt32) :
    (applyClass ticksPerSecond led nextClass now).trafficClass = nextClass := by
  rw [applyClass]
  split_ifs with hidle hchange
  · rw [trafficClass_setLed]
  · rw [trafficClass_setLed]
  · have hsame : led.trafficClass = nextClass := (not_not.mp hchange).symm
    dsimp only
    split_ifs
    · rwa [trafficClass_setLed]
    · exact hsame
    · exact hsame

theorem change_blinks (hclass : trafficClass ≠ .idle) (hbefore : led.trafficClass ≠ trafficClass)
    (hafter : (mcActivityLedTick ticksPerSecond led (UInt32.ofNat t0)).trafficClass =
      trafficClass) :
    Blinks ticksPerSecond trafficClass t0 t0
      (mcActivityLedTick ticksPerSecond led (UInt32.ofNat t0)) := by
  have hnone : halfPeriodsSince ticksPerSecond trafficClass t0 t0 = 0 := by
    rw [halfPeriodsSince, Nat.sub_self, Nat.zero_div]
  have hends : sampleEnds ticksPerSecond led (UInt32.ofNat t0) = true := by
    by_contra hends
    rw [mcActivityLedTick, if_neg hends, trafficClass_applyClass] at hafter
    exact hbefore hafter
  have hsample : classifyBytes led.windowBytes = trafficClass := by
    rwa [mcActivityLedTick, if_pos hends, trafficClass_applyClass] at hafter
  refine ⟨le_rfl, hafter, ?_, ?_⟩ <;>
    rw [mcActivityLedTick, if_pos hends, hsample, applyClass, if_neg hclass, if_pos hbefore.symm,
      hnone]
  · rw [phaseStartTicks_setLed, Nat.zero_mul, Nat.add_zero]
  · rw [on_setLed, decide_eq_true Even.zero]

end

/-! The pin: it is low while the LED is on. -/

/-- The pin is written when the LED changes and at no other time; the other bits of the data
register and the directions stay. -/
structure WritesPin (before after : McActivityLed) : Prop where
  unchanged : after.on = before.on → after.gpio = before.gpio
  written : after.on ≠ before.on →
    after.gpio.drStores = before.gpio.drStores ++ [after.gpio.drShadow] ∧
      after.gpio.drShadow &&& ~~~platformGpio0Bit0 =
        before.gpio.drShadow &&& ~~~platformGpio0Bit0 ∧
      after.gpio.drShadow &&& platformGpio0Bit0 =
        (if after.on then 0 else platformGpio0Bit0) ∧
      after.gpio.dataWrites = before.gpio.dataWrites + 1 ∧
      after.gpio.ddrShadow = before.gpio.ddrShadow ∧ after.gpio.ddrStores = before.gpio.ddrStores

theorem WritesPin.refl {before after : McActivityLed} (hon : after.on = before.on)
    (hgpio : after.gpio = before.gpio) : WritesPin before after :=
  ⟨fun _ => hgpio, fun hne => absurd hon hne⟩

theorem or_and_distrib (a b mask : UInt32) :
    (a ||| b) &&& mask = (a &&& mask) ||| (b &&& mask) := by
  apply UInt32.toNat_inj.mp
  simp only [UInt32.toNat_and, UInt32.toNat_or, Nat.and_or_distrib_right]

theorem maskedStore_and_not (dr mask value : UInt32) :
    ((dr &&& ~~~mask) ||| (value &&& mask)) &&& ~~~mask = dr &&& ~~~mask := by
  rw [or_and_distrib, UInt32.and_assoc, UInt32.and_self, UInt32.and_assoc,
    UInt32.and_not_self, UInt32.and_zero, UInt32.or_zero]

theorem maskedStore_and (dr mask value : UInt32) :
    ((dr &&& ~~~mask) ||| (value &&& mask)) &&& mask = value &&& mask := by
  rw [or_and_distrib, UInt32.and_assoc, UInt32.not_and_self, UInt32.and_zero,
    UInt32.zero_or, UInt32.and_assoc, UInt32.and_self]

theorem setLed_writesPin (led : McActivityLed) (on : Bool) : WritesPin led (setLed led on) := by
  rw [setLed]
  split_ifs with hsame
  · exact WritesPin.refl rfl rfl
  · refine ⟨fun heq => absurd heq.symm hsame, fun _ => ⟨rfl, ?_, ?_, rfl, rfl, rfl⟩⟩
    · exact maskedStore_and_not ..
    · refine (maskedStore_and ..).trans ?_
      cases on <;> rfl

theorem WritesPin.of_eq {before middle after : McActivityLed} (h : WritesPin middle after)
    (hon : middle.on = before.on) (hgpio : middle.gpio = before.gpio) : WritesPin before after := by
  obtain ⟨hunchanged, hwritten⟩ := h
  rw [hon, hgpio] at hunchanged hwritten
  exact ⟨hunchanged, hwritten⟩

theorem applyClass_writesPin (ticksPerSecond : UInt32) (led : McActivityLed)
    (nextClass : McActivityLedClass) (now : UInt32) :
    WritesPin led (applyClass ticksPerSecond led nextClass now) := by
  rw [applyClass]
  split_ifs
  · exact (setLed_writesPin _ _).of_eq rfl rfl
  · exact (setLed_writesPin _ _).of_eq rfl rfl
  · dsimp only
    split_ifs
    · exact (setLed_writesPin _ _).of_eq rfl rfl
    · exact WritesPin.refl rfl rfl
    · exact WritesPin.refl rfl rfl

theorem ledStep_writesPin (ticksPerSecond : UInt32) (led : McActivityLed) (op : LedOp) :
    WritesPin led (ledStep ticksPerSecond led op) := by
  cases op with
  | observe bytes => exact WritesPin.refl rfl rfl
  | tick time =>
    rw [ledStep, mcActivityLedTick]
    split_ifs
    · have happly := applyClass_writesPin ticksPerSecond
        { led with sampleStartTicks := UInt32.ofNat time } (classifyBytes led.windowBytes)
        (UInt32.ofNat time)
      exact ⟨happly.unchanged, happly.written⟩
    · exact applyClass_writesPin ..

/-- The register holds what its shadow says, and the pin shows the LED. -/
structure PinShows (led : McActivityLed) : Prop where
  register : led.gpio.drStores.getLast? = some led.gpio.drShadow
  pin : led.gpio.drShadow &&& platformGpio0Bit0 = if led.on then 0 else platformGpio0Bit0

theorem PinShows.step {before after : McActivityLed} (h : PinShows before)
    (hstep : WritesPin before after) : PinShows after := by
  by_cases hon : after.on = before.on
  · obtain ⟨hregister, hpin⟩ := h
    rw [← hstep.unchanged hon] at hregister hpin
    rw [← hon] at hpin
    exact ⟨hregister, hpin⟩
  · obtain ⟨hstores, _, hpin, _⟩ := hstep.written hon
    refine ⟨?_, hpin⟩
    rw [hstores, List.getLast?_concat]

theorem ledRun_pinShows (ticksPerSecond : UInt32) (gpio : PlatformGpio0) (start : UInt32)
    (ops : List LedOp) :
    PinShows (ledRun ticksPerSecond (mcActivityLedInit gpio start) ops) := by
  have hrun : ∀ led, PinShows led → PinShows (ledRun ticksPerSecond led ops) := by
    induction ops with
    | nil => exact fun _ h => h
    | cons op ops ih => exact fun led h => ih _ (h.step (ledStep_writesPin ticksPerSecond led op))
  apply hrun
  refine ⟨?_, ?_⟩
  · exact List.getLast?_concat
  · exact maskedStore_and ..

/-- Late and irregular ticks show one waveform: in any run, from a change to a class that is not
idle the LED is on in the even half periods of that class, while the samples stay in it. The pin
is written when the LED changes and only then, and no other bit of its register is. -/
theorem mcActivityLed_waveform (ticksPerSecond : UInt32) (gpio : PlatformGpio0) (start : ℕ)
    (before : List LedOp) :
    let led := ledRun ticksPerSecond (mcActivityLedInit gpio (UInt32.ofNat start)) before
    (∀ t0 trafficClass, trafficClass ≠ .idle → led.trafficClass ≠ trafficClass →
      (ledStep ticksPerSecond led (.tick t0)).trafficClass = trafficClass →
      ∀ after t, Steady ticksPerSecond trafficClass (ledStep ticksPerSecond led (.tick t0)) t0
          (after ++ [.tick t]) →
        ((ledRun ticksPerSecond (ledStep ticksPerSecond led (.tick t0)) (after ++ [.tick t])).on =
            true ↔
          Even ((t - t0) / (classHalfPeriod ticksPerSecond trafficClass).toNat))) ∧
      PinShows led ∧ ∀ op, WritesPin led (ledStep ticksPerSecond led op) := by
  intro led
  refine ⟨fun t0 trafficClass hclass hbefore hafter after t hsteady => ?_,
    ledRun_pinShows ticksPerSecond gpio _ before, ledStep_writesPin ticksPerSecond led⟩
  have hrun := run_blinks hclass (change_blinks hclass hbefore hafter) hsteady
  rw [lastTick_append_tick] at hrun
  have hon : (ledRun ticksPerSecond (ledStep ticksPerSecond led (.tick t0))
      (after ++ [.tick t])).on =
        decide (Even (halfPeriodsSince ticksPerSecond trafficClass t0 t)) := hrun.on_eq
  rw [hon, decide_eq_true_eq, halfPeriodsSince]

/-- Ticks across a wrap of the counter: the LED is on in the third half period. -/
theorem mcActivityLed_waveform_wraps :
    let gpio : PlatformGpio0 := ⟨0xffffffff, 0x8000, 0, [], []⟩
    let led := ledRun 1200 (mcActivityLedInit gpio (UInt32.ofNat 4294967076)) [.observe 100]
    (ledRun 1200 (ledStep 1200 led (.tick 4294967196))
        ([.observe 80, .tick 4294967406, .observe 80] ++ [.tick 4294967606])).on = true ↔
      Even ((4294967606 - 4294967196) / (classHalfPeriod 1200 .medium).toNat) :=
  (mcActivityLed_waveform 1200 ⟨0xffffffff, 0x8000, 0, [], []⟩ 4294967076 [.observe 100]).1
    4294967196 .medium (by decide) (by decide) (by decide)
    [.observe 80, .tick 4294967406, .observe 80] 4294967606
    ⟨by decide, by decide, fun _ => by decide, by decide, by decide, fun _ => by decide, trivial⟩

end StarrySky.Firmware
