import StarrySky.Core.ChatAccepted
import StarrySky.Core.CoordinateAccuracy
import StarrySky.Core.ServerInvariant

/-! The grammar of the commands, and that `mc_commands_handle_chat` accepts exactly it. -/

namespace StarrySky.Core
open StarrySky.Base

/-! Ticks. -/

/-- What `mc_parse_time_ticks` has found of digits whose exact value is `exact`: past the limit it
only remembers that. -/
structure TicksRead (exact : ℕ) (value : Int32) : Prop where
  nonneg : 0 ≤ value.toInt
  bounded : value.toInt ≤ 240009
  toInt_eq : exact ≤ 24000 → value.toInt = exact
  past_limit : 24000 < exact → 24000 < value.toInt

theorem toInt_digit {ch : UInt8} (h : isDigit ch = true) :
    (ch - 0x30).toUInt32.toInt32.toInt = digitValue ch := by
  have hdigit := digitValue_lt h
  have htoNat : (ch - 0x30).toUInt32.toInt32.toBitVec.toNat = digitValue ch := toNat_toUInt32_sub ch
  have hint : (ch - 0x30).toUInt32.toInt32.toInt =
      (ch - 0x30).toUInt32.toInt32.toBitVec.toInt := rfl
  rw [hint, BitVec.toInt_eq_toNat_of_lt (by omega), htoNat]

theorem toInt_accumulate {ch : UInt8} (h : isDigit ch = true) {value : Int32}
    (hnonneg : 0 ≤ value.toInt) (hle : value.toInt ≤ 24000) :
    (value * 10).toInt = value.toInt * 10 ∧
      (value * 10 + (ch - 0x30).toUInt32.toInt32).toInt = value.toInt * 10 + digitValue ch := by
  have hdigit := digitValue_lt h
  have hten : (10 : Int32).toInt = 10 := rfl
  have hmul : (value * 10).toInt = value.toInt * 10 := by
    rw [Int32.toInt_mul, hten]
    exact Int.bmod_eq_of_le (by omega) (by omega)
  refine ⟨hmul, ?_⟩
  rw [Int32.toInt_add, hmul, toInt_digit h]
  exact Int.bmod_eq_of_le (by omega) (by omega)

theorem le_ticksLimit_iff (value : Int32) : value ≤ 24000 ↔ value.toInt ≤ 24000 :=
  Int32.le_iff_toInt_le

theorem TicksRead.step {exact : ℕ} {value : Int32} (h : TicksRead exact value) {ch : UInt8}
    (hch : isDigit ch = true) :
    TicksRead (10 * exact + digitValue ch)
      (if value ≤ 24000 then value * 10 + (ch - 0x30).toUInt32.toInt32 else value) := by
  have hnonneg := h.nonneg
  have hexact := h.toInt_eq
  have hover := h.past_limit
  have hdigit := digitValue_lt hch
  by_cases hle : value ≤ 24000
  · have hvalue := (le_ticksLimit_iff value).mp hle
    obtain ⟨_, hnext⟩ := toInt_accumulate hch hnonneg hvalue
    rw [if_pos hle]
    constructor <;> omega
  · have hvalue := (le_ticksLimit_iff value).not.mp hle
    rw [if_neg hle]
    exact ⟨hnonneg, h.bounded, by omega, by omega⟩

theorem timeTicksLoop_of_isDigits {digits : List UInt8} (hdigits : IsDigits digits) {exact : ℕ}
    {value : Int32} (h : TicksRead exact value) :
    ∃ ticks, timeTicksLoop value digits = some ticks ∧ TicksRead (digitsFrom exact digits) ticks := by
  induction digits generalizing exact value with
  | nil => exact ⟨value, rfl, h⟩
  | cons ch digits ih =>
    rw [timeTicksLoop, if_pos hdigits.head]
    exact ih hdigits.tail (h.step hdigits.head)

theorem isDigits_of_timeTicksLoop {text : List UInt8} {value ticks : Int32}
    (h : timeTicksLoop value text = some ticks) : IsDigits text := by
  induction text generalizing value with
  | nil => simp [IsDigits]
  | cons ch text ih =>
    rw [timeTicksLoop] at h
    by_cases hch : isDigit ch = true
    case neg =>
      rw [if_neg hch] at h
      contradiction
    rw [if_pos hch] at h
    intro c hc
    rcases List.mem_cons.mp hc with rfl | hc
    · exact hch
    · exact ih h c hc

theorem mcParseTimeTicks_of_isDigits {token : List UInt8} (hne : token ≠ [])
    (hdigits : IsDigits token) :
    ∃ ticks, mcParseTimeTicks token = some ticks ∧ TicksRead (digitsValue token) ticks := by
  have hzero : TicksRead 0 0 := ⟨by decide, by decide, fun _ => rfl, by decide⟩
  rw [mcParseTimeTicks, if_neg hne]
  exact timeTicksLoop_of_isDigits hdigits hzero

theorem mcParseTimeTicks_eq_none {token : List UInt8} (h : ¬(token ≠ [] ∧ IsDigits token)) :
    mcParseTimeTicks token = none := by
  rw [mcParseTimeTicks]
  by_cases hnil : token = []
  · exact if_pos hnil
  · rw [if_neg hnil, Option.eq_none_iff_forall_not_mem]
    exact fun ticks hticks => h ⟨hnil, isDigits_of_timeTicksLoop hticks⟩

def timeTicksLoopChecked (value : Int32) : List UInt8 → InRange (Option Int32)
  | [] => .ok (some value)
  | ch :: rest =>
    if isDigit ch then
      if value ≤ 24000 then
        (I32.mul value 10).bind fun tenfold =>
        (I32.add tenfold (ch - 0x30).toUInt32.toInt32).bind fun value =>
          timeTicksLoopChecked value rest
      else timeTicksLoopChecked value rest
    else .ok none

def mcParseTimeTicksChecked (token : List UInt8) : InRange (Option Int32) :=
  if token = [] then .ok none else timeTicksLoopChecked 0 token

theorem timeTicksLoopChecked_eq (text : List UInt8) {value : Int32} (hnonneg : 0 ≤ value.toInt) :
    timeTicksLoopChecked value text = .ok (timeTicksLoop value text) := by
  have hten : (10 : Int32).toInt = 10 := rfl
  induction text generalizing value with
  | nil => rfl
  | cons ch rest ih =>
    rw [timeTicksLoopChecked, timeTicksLoop]
    by_cases hch : isDigit ch = true
    · rw [if_pos hch, if_pos hch]
      by_cases hle : value ≤ 24000
      · have hvalue := (le_ticksLimit_iff value).mp hle
        have hdigit := digitValue_lt hch
        obtain ⟨htenfold, hnext⟩ := toInt_accumulate hch hnonneg hvalue
        have hmul : I32.mul value 10 = .ok (value * 10) := if_pos (by rw [hten]; omega)
        have hadd : I32.add (value * 10) (ch - 0x30).toUInt32.toInt32 =
            .ok (value * 10 + (ch - 0x30).toUInt32.toInt32) :=
          if_pos (by rw [htenfold, toInt_digit hch]; omega)
        rw [if_pos hle, if_pos hle, hmul, bind_ok, hadd, bind_ok, ih (by omega)]
      · rw [if_neg hle, if_neg hle, ih hnonneg]
    · rw [if_neg hch, if_neg hch]

theorem mcParseTimeTicksChecked_eq (token : List UInt8) :
    mcParseTimeTicksChecked token = .ok (mcParseTimeTicks token) := by
  rw [mcParseTimeTicksChecked, mcParseTimeTicks]
  split_ifs
  · rfl
  · exact timeTicksLoopChecked_eq token (by decide)

/-! Coordinates. -/

def IsCoordinate (word : List UInt8) : Prop :=
  ∃ negative whole frac, IsDecimal word negative whole frac ∧ decimalAbs whole frac ≤ 30000000

/-- `bits` is the double for the number `word`. -/
def TypedCoordinate (word : List UInt8) (bits : Float64Bits) : Prop :=
  ∃ negative whole frac, IsDecimal word negative whole frac ∧ IsAccurate negative whole frac bits

theorem IsCoordinate.mcParseDecimal_eq {word : List UInt8} (h : IsCoordinate word) :
    ∃ bits, mcParseDecimal word = some (bits, false) ∧ TypedCoordinate word bits := by
  obtain ⟨negative, whole, frac, hdecimal, hle⟩ := h
  rcases hdecimal.mcParseDecimal_eq with ⟨hgt, _⟩ | ⟨_, bits, hparse, _⟩
  · exact absurd hle (not_le.mpr hgt)
  · exact ⟨bits, hparse, negative, whole, frac, hdecimal, hdecimal.isAccurate hparse⟩

theorem isCoordinate_of_mcParseDecimal {word : List UInt8} {bits : Float64Bits}
    (h : mcParseDecimal word = some (bits, false)) : IsCoordinate word := by
  obtain ⟨negative, whole, frac, hdecimal⟩ := exists_isDecimal h
  exact ⟨negative, whole, frac, hdecimal, (hdecimal.isNearestDouble h).1⟩

/-! The tokens of a message that starts with a slash. -/

theorem mcSplitSpaces_space (rest : List UInt8) : mcSplitSpaces (0x20 :: rest) = mcSplitSpaces rest := by
  rw [mcSplitSpaces, List.splitOnP_cons_eq_if_modifyHead, if_pos (by decide)]
  rfl

theorem mcSplitSpaces_run {run rest : List UInt8} (hne : run ≠ []) (hrun : ∀ ch ∈ run, ch ≠ 0x20)
    (hrest : rest = [] ∨ ∃ tail, rest = 0x20 :: tail) :
    mcSplitSpaces (run ++ rest) = run :: mcSplitSpaces rest := by
  have hkeep : ∀ ch ∈ run, decide (ch = 0x20) = false := by simpa using hrun
  rcases hrest with rfl | ⟨tail, rfl⟩
  · rw [List.append_nil, mcSplitSpaces, List.splitOnP_eq_singleton hkeep]
    simp [mcSplitSpaces, hne]
  · rw [mcSplitSpaces_space, mcSplitSpaces,
      List.splitOnP_append_cons_of_forall_mem hkeep 0x20 (by decide) tail]
    simp [mcSplitSpaces, hne]

/-- The loops of `mc_split_spaces`: over the spaces, then over a token. -/
def splitSpacesLoop (text : List UInt8) : List (List UInt8) :=
  match _h : text.dropWhile (· = 0x20) with
  | [] => []
  | ch :: rest =>
    (ch :: rest.takeWhile (· ≠ 0x20)) :: splitSpacesLoop (rest.dropWhile (· ≠ 0x20))
termination_by text.length
decreasing_by
  have hdrop := (text.dropWhile_suffix (· = 0x20)).length_le
  have hrest := (rest.dropWhile_suffix (· ≠ 0x20)).length_le
  rw [_h, List.length_cons] at hdrop
  omega

theorem mcSplitSpaces_dropWhile (text : List UInt8) :
    mcSplitSpaces (text.dropWhile (· = 0x20)) = mcSplitSpaces text := by
  induction text with
  | nil => rfl
  | cons ch text ih =>
    by_cases hch : ch = 0x20
    · rw [List.dropWhile_cons_of_pos (by simpa using hch), ih, hch, mcSplitSpaces_space]
    · rw [List.dropWhile_cons_of_neg (by simpa using hch)]

/-- `mcSplitSpaces` is what the loops of `mc_split_spaces` find. -/
theorem mcSplitSpaces_eq_loop (text : List UInt8) : mcSplitSpaces text = splitSpacesLoop text := by
  induction hlength : text.length using Nat.strong_induction_on generalizing text with
  | _ n ih =>
    subst hlength
    rw [splitSpacesLoop.eq_def, ← mcSplitSpaces_dropWhile text]
    have hdrop := (text.dropWhile_suffix (· = 0x20)).length_le
    split
    · next hnil => rw [hnil]; rfl
    · next ch rest hcons =>
      have hsplit := List.takeWhile_append_dropWhile (p := fun ch : UInt8 => decide (ch ≠ 0x20)) (l := rest)
      have hfirst : ch ≠ 0x20 := by
        have hhead := List.head?_dropWhile_not (fun ch : UInt8 => decide (ch = 0x20)) text
        rw [hcons] at hhead
        simpa using hhead
      have hrun : ∀ c ∈ ch :: rest.takeWhile (fun ch => decide (ch ≠ 0x20)), c ≠ 0x20 := by
        intro c hc
        rcases List.mem_cons.mp hc with rfl | hc
        · exact hfirst
        · simpa using List.mem_takeWhile_imp hc
      have hends : rest.dropWhile (fun ch => decide (ch ≠ 0x20)) = [] ∨
          ∃ tail, rest.dropWhile (fun ch => decide (ch ≠ 0x20)) = 0x20 :: tail := by
        have hhead := List.head?_dropWhile_not (fun ch : UInt8 => decide (ch ≠ 0x20)) rest
        cases htail : rest.dropWhile (fun ch => decide (ch ≠ 0x20)) with
        | nil => exact .inl rfl
        | cons c tail =>
          rw [htail] at hhead
          have hspace : c = 0x20 := by simpa using hhead
          exact .inr ⟨tail, by rw [hspace]⟩
      have hshorter : (rest.dropWhile (fun ch => decide (ch ≠ 0x20))).length < text.length := by
        have hrest := (rest.dropWhile_suffix (fun ch => decide (ch ≠ 0x20))).length_le
        rw [hcons, List.length_cons] at hdrop
        omega
      rw [hcons, ← ih _ hshorter _ rfl]
      nth_rewrite 1 [← hsplit]
      exact mcSplitSpaces_run (List.cons_ne_nil _ _) hrun hends

/-- The part of `mc_commands_handle_chat` behind `mc_split_spaces`. -/
def handleTokens (tokens : List (List UInt8)) (ctx : McCommandContext) : Option McCommandResult :=
  match tokens with
  | [] => unknownCommand
  | command :: _ =>
    if tokens.length > 5 then unknownCommand
    else if command = cText "/help" then
      if tokens.length ≠ 1 then unknownCommand
      else mcSetChat ("Commands: /help, /spawn, /tp <x> <y> <z>, /pos, " ++
        "/time <day|noon|night|midnight|ticks>, /weather <clear|rain|thunder>")
    else if command = cText "/spawn" then
      if tokens.length ≠ 1 then unknownCommand else mcHandleSpawn
    else if command = cText "/tp" then mcHandleTp tokens ctx
    else if command = cText "/pos" then
      if tokens.length ≠ 1 then unknownCommand else mcHandlePos ctx
    else if command = cText "/time" then mcHandleTime tokens
    else if command = cText "/weather" then mcHandleWeather tokens
    else unknownCommand

theorem mcCommandsHandleChat_slash {message : List UInt8} (h : message.head? = some 0x2f)
    (username : List UInt8) (ctx : McCommandContext) :
    mcCommandsHandleChat username message ctx = handleTokens (mcSplitSpaces message) ctx :=
  if_neg (not_not.mpr h)

theorem handleTokens_spawn (ctx : McCommandContext) :
    handleTokens [cText "/spawn"] ctx = mcHandleSpawn := by
  rw [handleTokens, if_neg (by simp), if_neg (by decide), if_pos rfl, if_neg (by simp)]

theorem handleTokens_tp {arguments : List (List UInt8)} (h : arguments.length ≤ 4)
    (ctx : McCommandContext) :
    handleTokens (cText "/tp" :: arguments) ctx = mcHandleTp (cText "/tp" :: arguments) ctx := by
  rw [handleTokens, List.length_cons, if_neg (by omega), if_neg (by decide), if_neg (by decide),
    if_pos rfl]

theorem handleTokens_time {arguments : List (List UInt8)} (h : arguments.length ≤ 4)
    (ctx : McCommandContext) :
    handleTokens (cText "/time" :: arguments) ctx = mcHandleTime (cText "/time" :: arguments) := by
  rw [handleTokens, List.length_cons, if_neg (by omega), if_neg (by decide), if_neg (by decide),
    if_neg (by decide), if_neg (by decide), if_pos rfl]

theorem handleTokens_weather {arguments : List (List UInt8)} (h : arguments.length ≤ 4)
    (ctx : McCommandContext) :
    handleTokens (cText "/weather" :: arguments) ctx =
      mcHandleWeather (cText "/weather" :: arguments) := by
  rw [handleTokens, List.length_cons, if_neg (by omega), if_neg (by decide), if_neg (by decide),
    if_neg (by decide), if_neg (by decide), if_neg (by decide), if_pos rfl]

/-! What each command accepts. -/

inductive IsTime : List UInt8 → Int32 → Prop
  | day : IsTime (cText "day") 1000
  | noon : IsTime (cText "noon") 6000
  | night : IsTime (cText "night") 13000
  | midnight : IsTime (cText "midnight") 18000
  | ticks {word : List UInt8} {ticks : Int32} (hne : word ≠ []) (hdigits : IsDigits word)
      (hle : digitsValue word ≤ 24000) (hticks : ticks.toInt = digitsValue word) : IsTime word ticks

inductive IsWeather : List UInt8 → McWeather → Prop
  | clear : IsWeather (cText "clear") .clear
  | rain : IsWeather (cText "rain") .rain
  | thunder : IsWeather (cText "thunder") .thunder

theorem mcCopyChat_eq {action : McCommandAction} {text : List UInt8}
    (h : text.length < mcCommandTextCap) :
    mcCopyChat action text = some { action, chat := text } := by
  have hroom : (McTextBuilder.init mcCommandTextCap).text.length + text.length <
      (McTextBuilder.init mcCommandTextCap).cap := by
    rw [McTextBuilder.init, List.length_nil, Nat.zero_add]
    exact h
  rw [mcCopyChat, McTextBuilder.appendCstr_eq, if_pos hroom]
  rfl

theorem mcHandleTp_of_isCoordinate {command x y z : List UInt8} (hx : IsCoordinate x)
    (hy : IsCoordinate y) (hz : IsCoordinate z) (ctx : McCommandContext) :
    ∃ position, mcHandleTp [command, x, y, z] ctx =
        some { action := .teleport position, chat := cText "Teleported." } ∧
      TypedCoordinate x position.x ∧ TypedCoordinate y position.y ∧
      TypedCoordinate z position.z ∧ position.yaw = ctx.position.yaw ∧
      position.pitch = ctx.position.pitch := by
  obtain ⟨bitsX, hparseX, htypedX⟩ := hx.mcParseDecimal_eq
  obtain ⟨bitsY, hparseY, htypedY⟩ := hy.mcParseDecimal_eq
  obtain ⟨bitsZ, hparseZ, htypedZ⟩ := hz.mcParseDecimal_eq
  refine ⟨{ x := bitsX, y := bitsY, z := bitsZ, yaw := ctx.position.yaw,
            pitch := ctx.position.pitch }, ?_, htypedX, htypedY, htypedZ, rfl, rfl⟩
  rw [mcHandleTp, hparseX, hparseY, hparseZ]
  exact (if_neg (by simp)).trans (mcCopyChat_eq (by decide))

theorem mcHandleTp_outOfRange {command x y z : List UInt8} {bitsX bitsY bitsZ : Float64Bits}
    {farX farY farZ : Bool} (hx : mcParseDecimal x = some (bitsX, farX))
    (hy : mcParseDecimal y = some (bitsY, farY)) (hz : mcParseDecimal z = some (bitsZ, farZ))
    (hfar : farX = true ∨ farY = true ∨ farZ = true) (ctx : McCommandContext) :
    mcHandleTp [command, x, y, z] ctx =
      some { action := .chat, chat := cText "Coordinate out of range." } := by
  rw [mcHandleTp, hx, hy, hz]
  exact (if_pos hfar).trans (mcCopyChat_eq (by decide))

theorem mcHandleTp_chat {tokens : List (List UInt8)} {ctx : McCommandContext}
    {result : McCommandResult} (h : mcHandleTp tokens ctx = some result)
    (hother : ∀ command x y z, tokens = [command, x, y, z] →
      ¬(IsCoordinate x ∧ IsCoordinate y ∧ IsCoordinate z)) : result.action = .chat := by
  rw [mcHandleTp.eq_def] at h
  split at h
  · next command x y z =>
    split at h
    · next bitsX farX bitsY farY bitsZ farZ hx hy hz =>
      by_cases hfar : farX = true ∨ farY = true ∨ farZ = true
      · rw [if_pos hfar] at h
        exact action_mcCopyChat h
      · simp only [not_or, Bool.not_eq_true] at hfar
        obtain ⟨rfl, rfl, rfl⟩ := hfar
        exact absurd ⟨isCoordinate_of_mcParseDecimal hx, isCoordinate_of_mcParseDecimal hy,
          isCoordinate_of_mcParseDecimal hz⟩ (hother command x y z rfl)
    · exact action_mcCopyChat h
  · exact action_mcCopyChat h

theorem mcHandleTime_digits {command word : List UInt8} (hne : word ≠ []) (hdigits : IsDigits word) :
    ∃ ticks, TicksRead (digitsValue word) ticks ∧
      mcHandleTime [command, word] =
        if ticks < 0 ∨ ticks > 24000 then mcSetChat "Time must be 0..24000."
        else mcTimeResult ticks := by
  have hday : word ≠ cText "day" := fun h => absurd (h ▸ hdigits) (by decide +kernel)
  have hnoon : word ≠ cText "noon" := fun h => absurd (h ▸ hdigits) (by decide +kernel)
  have hnight : word ≠ cText "night" := fun h => absurd (h ▸ hdigits) (by decide +kernel)
  have hmidnight : word ≠ cText "midnight" := fun h => absurd (h ▸ hdigits) (by decide +kernel)
  obtain ⟨ticks, hparse, hread⟩ := mcParseTimeTicks_of_isDigits hne hdigits
  refine ⟨ticks, hread, ?_⟩
  rw [mcHandleTime, if_neg hday, if_neg hnoon, if_neg hnight, if_neg hmidnight, hparse]

theorem ticks_outside_iff (ticks : Int32) :
    ticks < 0 ∨ ticks > 24000 ↔ ticks.toInt < 0 ∨ 24000 < ticks.toInt := by
  rw [gt_iff_lt, Int32.lt_iff_toInt_lt, Int32.lt_iff_toInt_lt]
  exact Iff.rfl

theorem exists_action_of_fits {result : Option McCommandResult} {action : McCommandAction}
    (hfits : ChatFits result) (haction : ∀ r, result = some r → r.action = action) :
    ∃ r, result = some r ∧ r.action = action := by
  obtain ⟨r, hr, _⟩ := hfits
  exact ⟨r, hr, haction r hr⟩

theorem mcHandleTime_of_isTime {word : List UInt8} {ticks : Int32} (h : IsTime word ticks)
    (command : List UInt8) :
    ∃ result, mcHandleTime [command, word] = some result ∧ result.action = .time ticks := by
  have hresult : mcHandleTime [command, word] = mcTimeResult ticks := by
    cases h with
    | day => rw [mcHandleTime, if_pos rfl]
    | noon => rw [mcHandleTime, if_neg (by decide), if_pos rfl]
    | night => rw [mcHandleTime, if_neg (by decide), if_neg (by decide), if_pos rfl]
    | midnight =>
      rw [mcHandleTime, if_neg (by decide), if_neg (by decide), if_neg (by decide), if_pos rfl]
    | ticks hne hdigits hle hticks =>
      obtain ⟨found, hread, hhandle⟩ := @mcHandleTime_digits command _ hne hdigits
      have hexact := hread.toInt_eq hle
      have hsame : found = ticks := Int32.toInt_inj.mp (hexact.trans hticks.symm)
      have hinside : ¬(found < 0 ∨ found > 24000) := by
        rw [ticks_outside_iff]
        omega
      rw [hhandle, if_neg hinside, hsame]
  rw [hresult]
  exact exists_action_of_fits (mcTimeResult_fits ticks) fun _ => action_mcTimeResult

theorem mcHandleTime_outOfRange {word : List UInt8} (hne : word ≠ []) (hdigits : IsDigits word)
    (hgt : 24000 < digitsValue word) (command : List UInt8) :
    mcHandleTime [command, word] =
      some { action := .chat, chat := cText "Time must be 0..24000." } := by
  obtain ⟨found, hread, hhandle⟩ := @mcHandleTime_digits command _ hne hdigits
  have houtside : found < 0 ∨ found > 24000 :=
    (ticks_outside_iff found).mpr (.inr (hread.past_limit hgt))
  rw [hhandle, if_pos houtside]
  exact mcCopyChat_eq (by decide)

theorem mcHandleTime_chat {tokens : List (List UInt8)} {result : McCommandResult}
    (h : mcHandleTime tokens = some result)
    (hother : ∀ command word ticks, tokens = [command, word] → ¬IsTime word ticks) :
    result.action = .chat := by
  rw [mcHandleTime.eq_def] at h
  split at h
  · next command word =>
    split_ifs at h with hday hnoon hnight hmidnight
    · exact absurd (hday ▸ .day) (hother command word 1000 rfl)
    · exact absurd (hnoon ▸ .noon) (hother command word 6000 rfl)
    · exact absurd (hnight ▸ .night) (hother command word 13000 rfl)
    · exact absurd (hmidnight ▸ .midnight) (hother command word 18000 rfl)
    · by_cases hdigits : word ≠ [] ∧ IsDigits word
      · obtain ⟨found, hparse, hread⟩ := mcParseTimeTicks_of_isDigits hdigits.1 hdigits.2
        rw [hparse] at h
        dsimp only at h
        by_cases houtside : found < 0 ∨ found > 24000
        · rw [if_pos houtside] at h
          exact action_mcCopyChat h
        · rw [ticks_outside_iff, not_or, not_lt, not_lt] at houtside
          have hle : digitsValue word ≤ 24000 :=
            Nat.le_of_not_lt fun hgt => absurd (hread.past_limit hgt) (not_lt.mpr houtside.2)
          exact absurd (.ticks hdigits.1 hdigits.2 hle (hread.toInt_eq hle))
            (hother command word found rfl)
      · rw [mcParseTimeTicks_eq_none hdigits] at h
        exact action_mcCopyChat h
  · exact action_mcCopyChat h

theorem mcHandleWeather_of_isWeather {word : List UInt8} {weather : McWeather}
    (h : IsWeather word weather) (command : List UInt8) :
    ∃ result, mcHandleWeather [command, word] = some result ∧ result.action = .weather weather := by
  cases h with
  | clear =>
    rw [mcHandleWeather, if_pos rfl]
    exact exists_action_of_fits (mcWeatherResult_fits .clear (by decide))
      fun _ => action_mcWeatherResult
  | rain =>
    rw [mcHandleWeather, if_neg (by decide), if_pos rfl]
    exact exists_action_of_fits (mcWeatherResult_fits .rain (by decide))
      fun _ => action_mcWeatherResult
  | thunder =>
    rw [mcHandleWeather, if_neg (by decide), if_neg (by decide), if_pos rfl]
    exact exists_action_of_fits (mcWeatherResult_fits .thunder (by decide))
      fun _ => action_mcWeatherResult

theorem mcHandleWeather_chat {tokens : List (List UInt8)} {result : McCommandResult}
    (h : mcHandleWeather tokens = some result)
    (hother : ∀ command word weather, tokens = [command, word] → ¬IsWeather word weather) :
    result.action = .chat := by
  rw [mcHandleWeather.eq_def] at h
  split at h
  · next command word =>
    split_ifs at h with hclear hrain hthunder
    · exact absurd (hclear ▸ .clear) (hother command word .clear rfl)
    · exact absurd (hrain ▸ .rain) (hother command word .rain rfl)
    · exact absurd (hthunder ▸ .thunder) (hother command word .thunder rfl)
    · exact action_mcCopyChat h
  · exact action_mcCopyChat h

/-! All commands together. -/

/-- What the tokens of a message ask for. -/
inductive Request : List (List UInt8) → Prop
  | spawn : Request [cText "/spawn"]
  | tp {x y z : List UInt8} (hx : IsCoordinate x) (hy : IsCoordinate y) (hz : IsCoordinate z) :
      Request [cText "/tp", x, y, z]
  | time {word : List UInt8} {ticks : Int32} (h : IsTime word ticks) :
      Request [cText "/time", word]
  | weather {word : List UInt8} {weather : McWeather} (h : IsWeather word weather) :
      Request [cText "/weather", word]

theorem handleTokens_chat {tokens : List (List UInt8)} {ctx : McCommandContext}
    {result : McCommandResult} (h : handleTokens tokens ctx = some result)
    (hother : ¬Request tokens) : result.action = .chat := by
  cases tokens with
  | nil => exact action_mcCopyChat h
  | cons command arguments =>
    rw [handleTokens] at h
    split_ifs at h with hmany hhelp hhelpLength hspawn hspawnLength htp hpos hposLength htime hweather
    · exact action_mcCopyChat h
    · exact action_mcCopyChat h
    · exact action_mcCopyChat h
    · exact action_mcCopyChat h
    · have hnil : arguments = [] := by simpa using hspawnLength
      rw [hspawn, hnil] at hother
      exact absurd .spawn hother
    · refine mcHandleTp_chat h ?_
      rintro first x y z htokens ⟨hx, hy, hz⟩
      rw [htokens, ← (List.cons.inj htokens).1, htp] at hother
      exact hother (.tp hx hy hz)
    · exact action_mcCopyChat h
    · exact action_mcHandlePos h
    · refine mcHandleTime_chat h ?_
      intro first word ticks htokens hword
      rw [htokens, ← (List.cons.inj htokens).1, htime] at hother
      exact hother (.time hword)
    · refine mcHandleWeather_chat h ?_
      intro first word weather htokens hword
      rw [htokens, ← (List.cons.inj htokens).1, hweather] at hother
      exact hother (.weather hword)
    · exact action_mcCopyChat h

/-- What a message must ask for to be answered with `result`. -/
structure FollowsGrammar (ctx : McCommandContext) (tokens : List (List UInt8))
    (result : McCommandResult) : Prop where
  teleport_iff : (∃ position, result.action = .teleport position) ↔
    tokens = [cText "/spawn"] ∨ ∃ x y z, tokens = [cText "/tp", x, y, z] ∧
      IsCoordinate x ∧ IsCoordinate y ∧ IsCoordinate z
  spawn_position : tokens = [cText "/spawn"] → result.action = .teleport mcCommandDefaultPosition
  tp_position : ∀ x y z position, tokens = [cText "/tp", x, y, z] →
    result.action = .teleport position → TypedCoordinate x position.x ∧
      TypedCoordinate y position.y ∧ TypedCoordinate z position.z ∧
      position.yaw = ctx.position.yaw ∧ position.pitch = ctx.position.pitch
  time_iff : ∀ ticks, result.action = .time ticks ↔
    ∃ word, tokens = [cText "/time", word] ∧ IsTime word ticks
  weather_iff : ∀ weather, result.action = .weather weather ↔
    ∃ word, tokens = [cText "/weather", word] ∧ IsWeather word weather
  chat_iff : result.action = .chat ↔ ¬Request tokens

theorem IsTime.unique {word : List UInt8} {ticks ticks' : Int32} (h : IsTime word ticks)
    (h' : IsTime word ticks') : ticks = ticks' := by
  obtain ⟨result, hresult, haction⟩ := mcHandleTime_of_isTime h []
  obtain ⟨result', hresult', haction'⟩ := mcHandleTime_of_isTime h' []
  rw [hresult] at hresult'
  cases hresult'
  rw [haction] at haction'
  exact McCommandAction.time.inj haction'

theorem IsWeather.unique {word : List UInt8} {weather weather' : McWeather}
    (h : IsWeather word weather) (h' : IsWeather word weather') : weather = weather' := by
  obtain ⟨result, hresult, haction⟩ := mcHandleWeather_of_isWeather h []
  obtain ⟨result', hresult', haction'⟩ := mcHandleWeather_of_isWeather h' []
  rw [hresult] at hresult'
  cases hresult'
  rw [haction] at haction'
  exact McCommandAction.weather.inj haction'

theorem followsGrammar_spawn (ctx : McCommandContext) {result : McCommandResult}
    (haction : result.action = .teleport mcCommandDefaultPosition) :
    FollowsGrammar ctx [cText "/spawn"] result where
  teleport_iff := ⟨fun _ => .inl rfl, fun _ => ⟨_, haction⟩⟩
  spawn_position _ := haction
  tp_position _ _ _ _ htokens _ := by simp at htokens
  time_iff _ := by simp [haction]
  weather_iff _ := by simp [haction]
  chat_iff := by simp [haction, Request.spawn]

theorem followsGrammar_tp {ctx : McCommandContext} {x y z : List UInt8} (hx : IsCoordinate x)
    (hy : IsCoordinate y) (hz : IsCoordinate z) {position : McCommandPosition}
    {result : McCommandResult} (haction : result.action = .teleport position)
    (htyped : TypedCoordinate x position.x ∧ TypedCoordinate y position.y ∧
      TypedCoordinate z position.z ∧ position.yaw = ctx.position.yaw ∧
      position.pitch = ctx.position.pitch) :
    FollowsGrammar ctx [cText "/tp", x, y, z] result where
  teleport_iff := ⟨fun _ => .inr ⟨x, y, z, rfl, hx, hy, hz⟩, fun _ => ⟨position, haction⟩⟩
  spawn_position htokens := by simp at htokens
  tp_position x' y' z' position' htokens hposition := by
    cases htokens
    rw [haction] at hposition
    cases hposition
    exact htyped
  time_iff _ := by simp [haction]
  weather_iff _ := by simp [haction]
  chat_iff := by simp [haction, Request.tp hx hy hz]

theorem followsGrammar_time (ctx : McCommandContext) {word : List UInt8} {ticks : Int32}
    (hword : IsTime word ticks) {result : McCommandResult} (haction : result.action = .time ticks) :
    FollowsGrammar ctx [cText "/time", word] result where
  teleport_iff := by simp [haction]
  spawn_position htokens := by simp at htokens
  tp_position _ _ _ _ htokens _ := by simp at htokens
  time_iff ticks' := by
    rw [haction]
    constructor
    · rintro ⟨⟩
      exact ⟨word, rfl, hword⟩
    · rintro ⟨word', htokens, hword'⟩
      cases htokens
      rw [hword.unique hword']
  weather_iff _ := by
    have hname : cText "/time" ≠ cText "/weather" := by decide
    simp [haction, hname]
  chat_iff := by simp [haction, Request.time hword]

theorem followsGrammar_weather (ctx : McCommandContext) {word : List UInt8} {weather : McWeather}
    (hword : IsWeather word weather) {result : McCommandResult}
    (haction : result.action = .weather weather) :
    FollowsGrammar ctx [cText "/weather", word] result where
  teleport_iff := by simp [haction]
  spawn_position htokens := by simp at htokens
  tp_position _ _ _ _ htokens _ := by simp at htokens
  time_iff _ := by
    have hname : cText "/weather" ≠ cText "/time" := by decide
    simp [haction, hname]
  weather_iff weather' := by
    rw [haction]
    constructor
    · rintro ⟨⟩
      exact ⟨word, rfl, hword⟩
    · rintro ⟨word', htokens, hword'⟩
      cases htokens
      rw [hword.unique hword']
  chat_iff := by simp [haction, Request.weather hword]

theorem followsGrammar_other (ctx : McCommandContext) {tokens : List (List UInt8)}
    (hother : ¬Request tokens) {result : McCommandResult} (haction : result.action = .chat) :
    FollowsGrammar ctx tokens result where
  teleport_iff := by
    rw [haction]
    constructor
    · rintro ⟨_, h⟩
      contradiction
    · rintro (rfl | ⟨x, y, z, rfl, hx, hy, hz⟩)
      · exact absurd .spawn hother
      · exact absurd (.tp hx hy hz) hother
  spawn_position htokens := absurd (htokens ▸ .spawn) hother
  tp_position _ _ _ _ _ hposition := by
    rw [haction] at hposition
    contradiction
  time_iff ticks := by
    rw [haction]
    constructor
    · intro h
      contradiction
    · rintro ⟨word, rfl, hword⟩
      exact absurd (.time hword) hother
  weather_iff weather := by
    rw [haction]
    constructor
    · intro h
      contradiction
    · rintro ⟨word, rfl, hword⟩
      exact absurd (.weather hword) hother
  chat_iff := ⟨fun _ => hother, fun _ => haction⟩

theorem exists_handleTokens (tokens : List (List UInt8)) (ctx : McCommandContext)
    (hfits : ChatFits (handleTokens tokens ctx)) :
    ∃ result, handleTokens tokens ctx = some result ∧ FollowsGrammar ctx tokens result := by
  by_cases hrequest : Request tokens
  case neg =>
    obtain ⟨result, hresult, _⟩ := hfits
    exact ⟨result, hresult, followsGrammar_other ctx hrequest (handleTokens_chat hresult hrequest)⟩
  cases hrequest with
  | spawn =>
    have hhandle : mcHandleSpawn =
        some { action := .teleport mcCommandDefaultPosition, chat := cText "Teleported to spawn." } :=
      mcCopyChat_eq (by decide)
    exact ⟨_, (handleTokens_spawn ctx).trans hhandle, followsGrammar_spawn ctx (by rfl)⟩
  | @tp x y z hx hy hz =>
    obtain ⟨position, hhandle, htyped⟩ :=
      @mcHandleTp_of_isCoordinate (cText "/tp") _ _ _ hx hy hz ctx
    exact ⟨_, (handleTokens_tp (by simp) ctx).trans hhandle,
      followsGrammar_tp hx hy hz (by rfl) htyped⟩
  | @time word ticks hword =>
    obtain ⟨result, hhandle, haction⟩ := mcHandleTime_of_isTime hword (cText "/time")
    exact ⟨result, (handleTokens_time (by simp) ctx).trans hhandle,
      followsGrammar_time ctx hword haction⟩
  | @weather word weather hword =>
    obtain ⟨result, hhandle, haction⟩ := mcHandleWeather_of_isWeather hword (cText "/weather")
    exact ⟨result, (handleTokens_weather (by simp) ctx).trans hhandle,
      followsGrammar_weather ctx hword haction⟩

/-! Numbers past a limit. -/

def IsNumber (word : List UInt8) : Prop := ∃ negative whole frac, IsDecimal word negative whole frac

theorem IsNumber.mcParseDecimal_eq {word : List UInt8} (h : IsNumber word) :
    ∃ bits far, mcParseDecimal word = some (bits, far) ∧ (far = false → IsCoordinate word) := by
  obtain ⟨negative, whole, frac, hdecimal⟩ := h
  rcases hdecimal.mcParseDecimal_eq with ⟨_, hparse⟩ | ⟨hle, bits, hparse, _⟩
  · exact ⟨0, true, hparse, by simp⟩
  · exact ⟨bits, false, hparse, fun _ => ⟨negative, whole, frac, hdecimal, hle⟩⟩

/-- What is said about numbers past a limit. -/
structure ReportsRange (tokens : List (List UInt8)) (result : McCommandResult) : Prop where
  tp : ∀ x y z, tokens = [cText "/tp", x, y, z] → IsNumber x → IsNumber y → IsNumber z →
    ¬(IsCoordinate x ∧ IsCoordinate y ∧ IsCoordinate z) →
      result = { action := .chat, chat := cText "Coordinate out of range." }
  time : ∀ word, tokens = [cText "/time", word] → word ≠ [] → IsDigits word →
    24000 < digitsValue word →
      result = { action := .chat, chat := cText "Time must be 0..24000." }

theorem reportsRange_handleTokens {tokens : List (List UInt8)} {ctx : McCommandContext}
    {result : McCommandResult} (h : handleTokens tokens ctx = some result) :
    ReportsRange tokens result where
  tp x y z htokens hx hy hz hfar := by
    obtain ⟨bitsX, farX, hparseX, hnearX⟩ := hx.mcParseDecimal_eq
    obtain ⟨bitsY, farY, hparseY, hnearY⟩ := hy.mcParseDecimal_eq
    obtain ⟨bitsZ, farZ, hparseZ, hnearZ⟩ := hz.mcParseDecimal_eq
    have hany : farX = true ∨ farY = true ∨ farZ = true := by
      by_contra hnone
      simp only [not_or, Bool.not_eq_true] at hnone
      exact hfar ⟨hnearX hnone.1, hnearY hnone.2.1, hnearZ hnone.2.2⟩
    rw [htokens, handleTokens_tp (by simp),
      mcHandleTp_outOfRange hparseX hparseY hparseZ hany] at h
    exact (Option.some.inj h).symm
  time word htokens hne hdigits hgt := by
    rw [htokens, handleTokens_time (by simp), mcHandleTime_outOfRange hne hdigits hgt] at h
    exact (Option.some.inj h).symm

/-- A message that starts with a slash is answered as the grammar says, numbers past a limit are
recognised whatever their length, and no number is computed beyond its type. -/
theorem mcCommandsHandleChat_grammar (username : List UInt8) {message : List UInt8}
    (ctx : McCommandContext) (h : message.head? = some 0x2f) :
    (∃ result, mcCommandsHandleChat username message ctx = some result ∧
      FollowsGrammar ctx (mcSplitSpaces message) result ∧
      ReportsRange (mcSplitSpaces message) result) ∧
    (∀ word negative whole frac, IsDecimal word negative whole frac →
      30000000 < decimalAbs whole frac → mcParseDecimal word = some (0, true)) ∧
    (∀ word, word ≠ [] → IsDigits word → 24000 < digitsValue word →
      ∃ ticks, mcParseTimeTicks word = some ticks ∧ 24000 < ticks.toInt) ∧
    ∀ word, mcParseDecimalChecked word = .ok (mcParseDecimal word) ∧
      mcParseTimeTicksChecked word = .ok (mcParseTimeTicks word) := by
  refine ⟨?_, ?_, ?_, fun word => ⟨mcParseDecimalChecked_eq word, mcParseTimeTicksChecked_eq word⟩⟩
  · have hfits := mcCommandsHandleChat_fits username ctx h
    rw [mcCommandsHandleChat_slash h] at hfits ⊢
    obtain ⟨result, hresult, hgrammar⟩ := exists_handleTokens _ ctx hfits
    exact ⟨result, hresult, hgrammar, reportsRange_handleTokens hresult⟩
  · intro word negative whole frac hdecimal hgt
    rcases hdecimal.mcParseDecimal_eq with ⟨_, hparse⟩ | ⟨hle, _⟩
    · exact hparse
    · exact absurd hgt (not_lt.mpr hle)
  · intro word hne hdigits hgt
    obtain ⟨ticks, hparse, hread⟩ := mcParseTimeTicks_of_isDigits hne hdigits
    exact ⟨ticks, hparse, hread.past_limit hgt⟩

theorem mcCommandsHandleChat_grammar_night :
    (∃ result, mcCommandsHandleChat [] (cText "/time night") {
        position := mcCommandDefaultPosition, timeOfDay := 6000, weather := .clear } =
          some result ∧
      FollowsGrammar { position := mcCommandDefaultPosition, timeOfDay := 6000, weather := .clear }
        (mcSplitSpaces (cText "/time night")) result ∧
      ReportsRange (mcSplitSpaces (cText "/time night")) result) ∧
    (∀ word negative whole frac, IsDecimal word negative whole frac →
      30000000 < decimalAbs whole frac → mcParseDecimal word = some (0, true)) ∧
    (∀ word, word ≠ [] → IsDigits word → 24000 < digitsValue word →
      ∃ ticks, mcParseTimeTicks word = some ticks ∧ 24000 < ticks.toInt) ∧
    ∀ word, mcParseDecimalChecked word = .ok (mcParseDecimal word) ∧
      mcParseTimeTicksChecked word = .ok (mcParseTimeTicks word) :=
  mcCommandsHandleChat_grammar [] _ (by decide)

end StarrySky.Core
