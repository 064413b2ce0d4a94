import StarrySky.Core.Packet

/-! Chat messages and the commands in them, `core/src/mc_commands.c`. -/

namespace StarrySky.Core

abbrev mcCommandTextCap : ℕ := 160
abbrev mcCommandCoordLimitWhole : UInt32 := 30000000
abbrev mcCommandDecimalMaxFracDigits : ℕ := 9
abbrev mcCommandFixed2MaxScaled : UInt64 := 3000000000

inductive McWeather
  | clear
  | rain
  | thunder
deriving DecidableEq, Repr

structure McCommandPosition where
  x : Float64Bits
  y : Float64Bits
  z : Float64Bits
  yaw : Float32Bits
  pitch : Float32Bits
deriving DecidableEq

structure McCommandContext where
  position : McCommandPosition
  timeOfDay : Int32
  weather : McWeather
deriving DecidableEq

/-- The type of a result together with the member of the union that goes with it. -/
inductive McCommandAction
  | chat
  | teleport (position : McCommandPosition)
  | time (timeOfDay : Int32)
  | weather (weather : McWeather)
deriving DecidableEq

structure McCommandResult where
  action : McCommandAction
  chat : List UInt8
deriving DecidableEq

/-- 0.5, 32.0 and 0.5; no rotation. -/
def mcCommandDefaultPosition : McCommandPosition :=
  { x := 0x3fe0000000000000, y := 0x4040000000000000, z := 0x3fe0000000000000, yaw := 0
    pitch := 0 }

abbrev mcCommandDefaultTime : Int32 := 6000

/-- A text of fewer than `cap` bytes under construction. -/
structure McTextBuilder where
  cap : ℕ
  text : List UInt8
deriving DecidableEq

namespace McTextBuilder

def init (cap : ℕ) : McTextBuilder := { cap, text := [] }

def appendChar (builder : McTextBuilder) (ch : UInt8) : Option McTextBuilder :=
  if builder.text.length + 1 ≥ builder.cap then none
  else some { builder with text := builder.text ++ [ch] }

def appendBytes (builder : McTextBuilder) (text : List UInt8) : Option McTextBuilder :=
  if text.length ≥ builder.cap ∨ builder.text.length > builder.cap - text.length - 1 then none
  else some { builder with text := builder.text ++ text }

def appendCstr (builder : McTextBuilder) (text : List UInt8) : Option McTextBuilder :=
  builder.appendBytes text

/-- The digits of `value`, the last one first in the loop that finds them. -/
def u32Digits (value : UInt32) : ℕ → List UInt8 → List UInt8
  | 0, digits => digits
  | room + 1, digits =>
    if value > 0 then u32Digits (value / 10) room ((0x30 + (value % 10).toUInt8) :: digits)
    else digits

def appendU32 (builder : McTextBuilder) (value : UInt32) : Option McTextBuilder :=
  if value = 0 then builder.appendChar 0x30
  else (u32Digits value 10 []).foldlM appendChar builder

def appendI32 (builder : McTextBuilder) (value : Int32) : Option McTextBuilder :=
  if value < 0 then do
    let builder ← builder.appendChar 0x2d
    builder.appendU32 ((-(value + 1)).toUInt32 + 1)
  else builder.appendU32 value.toUInt32

def appendFixed2Scaled (builder : McTextBuilder) (negative : Bool) (scaled : UInt32) :
    Option McTextBuilder := do
  let frac := scaled % 100
  let builder ← if negative ∧ scaled ≠ 0 then builder.appendChar 0x2d else some builder
  let builder ← builder.appendU32 (scaled / 100)
  let builder ← builder.appendChar 0x2e
  let builder ← builder.appendChar (0x30 + (frac / 10).toUInt8)
  builder.appendChar (0x30 + (frac % 10).toUInt8)

end McTextBuilder

def mcRoundShiftU64 (value : UInt64) (shift : ℕ) : UInt64 :=
  if shift = 0 then value
  else if shift ≥ 64 then 0
  else
    let quotient := value >>> UInt64.ofNat shift
    let remainder := value &&& ((1 <<< UInt64.ofNat shift) - 1)
    let half : UInt64 := 1 <<< UInt64.ofNat (shift - 1)
    if remainder > half ∨ (remainder = half ∧ quotient &&& 1 ≠ 0) then quotient + 1 else quotient

/-- The sign to show and the value in hundredths. -/
def mcBinaryToFixed2 (negative : Bool) (exponent : ℤ) (mantissa : UInt64) (mantissaBits : ℕ) :
    Option (Bool × UInt32) :=
  let shift := exponent - mantissaBits
  if mantissa > 0xffffffffffffffff / 100 then none
  else
    let base := (mantissa <<< 6) + (mantissa <<< 5) + (mantissa <<< 2)
    let scaled : Option UInt64 :=
      if shift ≥ 0 then
        if shift ≥ 64 ∨ base > mcCommandFixed2MaxScaled >>> UInt64.ofNat shift.toNat then none
        else some (base <<< UInt64.ofNat shift.toNat)
      else some (mcRoundShiftU64 base (-shift).toNat)
    match scaled with
    | none => none
    | some scaled =>
      if scaled > mcCommandFixed2MaxScaled then none
      else some (negative && scaled ≠ 0, scaled.toUInt32)

def mcDoubleToFixed2 (value : Float64Bits) : Option (Bool × UInt32) :=
  let expBits := (value >>> 52) &&& 0x7ff
  let frac := value &&& 0x000fffffffffffff
  if expBits = 0x7ff then none
  else if expBits = 0 then some (false, 0)
  else
    mcBinaryToFixed2 (value &&& 0x8000000000000000 ≠ 0) ((expBits.toNat : ℤ) - 1023)
      (0x0010000000000000 ||| frac) 52

def mcFloatToFixed2 (value : Float32Bits) : Option (Bool × UInt32) :=
  let expBits := (value >>> 23) &&& 0xff
  let frac := value &&& 0x007fffff
  if expBits = 0xff then none
  else if expBits = 0 then some (false, 0)
  else
    mcBinaryToFixed2 (value &&& 0x80000000 ≠ 0) ((expBits.toNat : ℤ) - 127)
      (0x00800000 ||| frac).toUInt64 23

def mcCopyChat (action : McCommandAction) (text : List UInt8) : Option McCommandResult := do
  let builder ← (McTextBuilder.init mcCommandTextCap).appendCstr text
  return { action, chat := builder.text }

def mcSetChat (text : String) : Option McCommandResult := mcCopyChat .chat (cText text)

/-- The maximal runs of characters other than spaces. -/
def mcSplitSpaces (text : List UInt8) : List (List UInt8) :=
  (text.splitOnP (· = 0x20)).filter (· ≠ [])

def fracQ32Place : List UInt64 :=
  [429496730, 42949673, 4294967, 429497, 42950, 4295, 430, 43, 4]

/-- The decimal digits of a fraction, the last one first. -/
def fracDigitsLoop (fracValue scale : UInt32) : ℕ → List UInt64
  | 0 => []
  | room + 1 =>
    if scale > 1 then (fracValue % 10).toUInt64 :: fracDigitsLoop (fracValue / 10) (scale / 10) room
    else []

def fracQ32 (frac scale : UInt32) : UInt64 :=
  let digits := (fracDigitsLoop frac scale mcCommandDecimalMaxFracDigits).reverse
  (digits.zip fracQ32Place).foldl (fun sum p => sum + p.1 * p.2) 0

def mcDecimalToDouble (negative : Bool) (whole frac scale : UInt32) : Float64Bits :=
  let q32 := (whole.toUInt64 <<< 32) + (if frac ≠ 0 then fracQ32 frac scale else 0)
  if q32 = 0 then 0
  else
    let msb := q32.toNat.log2
    let exponent : ℤ := (msb : ℤ) - 32
    let shift : ℤ := 52 - msb
    let rounded : UInt64 × ℤ :=
      if shift ≥ 0 then (q32 <<< UInt64.ofNat shift.toNat, exponent)
      else
        let mantissa := mcRoundShiftU64 q32 (-shift).toNat
        if mantissa >>> 53 ≠ 0 then (mantissa >>> 1, exponent + 1) else (mantissa, exponent)
    let bits := (UInt64.ofNat (rounded.2 + 1023).toNat <<< 52) |||
      (rounded.1 &&& 0x000fffffffffffff)
    if negative then bits ||| 0x8000000000000000 else bits

def isDigit (ch : UInt8) : Bool := 0x30 ≤ ch ∧ ch ≤ 0x39

/-- What a loop over digits has found, and the characters after them. -/
structure WholeDigits where
  rangeError : Bool
  whole : UInt32
  intDigits : ℕ
  rest : List UInt8

def wholeLoop (rangeError : Bool) (whole : UInt32) (intDigits : ℕ) : List UInt8 → WholeDigits
  | [] => { rangeError, whole, intDigits, rest := [] }
  | ch :: rest =>
    if isDigit ch then
      let digit := (ch - 0x30).toUInt32
      if whole > (mcCommandCoordLimitWhole - digit) / 10 then
        wholeLoop true whole (intDigits + 1) rest
      else if !rangeError then wholeLoop rangeError (whole * 10 + digit) (intDigits + 1) rest
      else wholeLoop rangeError whole (intDigits + 1) rest
    else { rangeError, whole, intDigits, rest := ch :: rest }

structure FracDigits where
  frac : UInt32
  scale : UInt32
  fracDigits : ℕ
  discardedNonzeroFrac : Bool
  rest : List UInt8

def fracLoop (rangeError : Bool) (frac scale : UInt32) (fracDigits : ℕ)
    (discardedNonzeroFrac : Bool) : List UInt8 → FracDigits
  | [] => { frac, scale, fracDigits, discardedNonzeroFrac, rest := [] }
  | ch :: rest =>
    if isDigit ch then
      if !rangeError ∧ fracDigits < mcCommandDecimalMaxFracDigits then
        fracLoop rangeError (frac * 10 + (ch - 0x30).toUInt32) (scale * 10) (fracDigits + 1)
          discardedNonzeroFrac rest
      else
        fracLoop rangeError frac scale (fracDigits + 1) (discardedNonzeroFrac || ch ≠ 0x30) rest
    else { frac, scale, fracDigits, discardedNonzeroFrac, rest := ch :: rest }

/-- The value and whether it is out of range. -/
def mcParseDecimal (token : List UInt8) : Option (Float64Bits × Bool) :=
  let sign : Option (Bool × List UInt8) :=
    match token with
    | [] => none
    | ch :: rest =>
      if ch = 0x2d ∨ ch = 0x2b then if rest = [] then none else some (ch = 0x2d, rest)
      else some (false, ch :: rest)
  match sign with
  | none => none
  | some (negative, digits) =>
    let whole := wholeLoop false 0 0 digits
    if whole.intDigits = 0 then none
    else
      let frac : Option FracDigits :=
        match whole.rest with
        | ch :: rest =>
          if ch = 0x2e then
            let frac := fracLoop whole.rangeError 0 1 0 false rest
            if frac.fracDigits = 0 then none else some frac
          else some ⟨0, 1, 0, false, ch :: rest⟩
        | [] => some ⟨0, 1, 0, false, []⟩
      match frac with
      | none => none
      | some frac =>
        if frac.rest ≠ [] then none
        else
          let rangeError := whole.rangeError || whole.whole > mcCommandCoordLimitWhole ||
            (whole.whole = mcCommandCoordLimitWhole &&
              (frac.frac ≠ 0 || frac.discardedNonzeroFrac))
          if rangeError then some (0, true)
          else some (mcDecimalToDouble negative whole.whole frac.frac frac.scale, false)

def timeTicksLoop (value : Int32) : List UInt8 → Option Int32
  | [] => some value
  | ch :: rest =>
    if isDigit ch then
      timeTicksLoop (if value ≤ 24000 then value * 10 + (ch - 0x30).toUInt32.toInt32 else value)
        rest
    else none

def mcParseTimeTicks (token : List UInt8) : Option Int32 :=
  if token = [] then none else timeTicksLoop 0 token

def mcPlainChat (username message : List UInt8) : Option McCommandResult := do
  let builder ← (McTextBuilder.init mcCommandTextCap).appendChar 0x3c
  let builder ← builder.appendCstr username
  let builder ← builder.appendCstr (cText "> ")
  let builder ← builder.appendCstr message
  return { action := .chat, chat := builder.text }

def mcHandleSpawn : Option McCommandResult :=
  mcCopyChat (.teleport mcCommandDefaultPosition) (cText "Teleported to spawn.")

def mcHandleTp (tokens : List (List UInt8)) (ctx : McCommandContext) : Option McCommandResult :=
  match tokens with
  | [_, x, y, z] =>
    match mcParseDecimal x, mcParseDecimal y, mcParseDecimal z with
    | some (x, xOutOfRange), some (y, yOutOfRange), some (z, zOutOfRange) =>
      if xOutOfRange ∨ yOutOfRange ∨ zOutOfRange then mcSetChat "Coordinate out of range."
      else
        mcCopyChat (.teleport { x, y, z, yaw := ctx.position.yaw, pitch := ctx.position.pitch })
          (cText "Teleported.")
    | _, _, _ => mcSetChat "Invalid number."
  | _ => mcSetChat "Usage: /tp <x> <y> <z>"

def mcHandlePos (ctx : McCommandContext) : Option McCommandResult :=
  match mcDoubleToFixed2 ctx.position.x, mcDoubleToFixed2 ctx.position.y,
    mcDoubleToFixed2 ctx.position.z, mcFloatToFixed2 ctx.position.yaw,
    mcFloatToFixed2 ctx.position.pitch with
  | some x, some y, some z, some yaw, some pitch => do
    let builder ← (McTextBuilder.init mcCommandTextCap).appendCstr (cText "Known position: x=")
    let builder ← builder.appendFixed2Scaled x.1 x.2
    let builder ← builder.appendCstr (cText " y=")
    let builder ← builder.appendFixed2Scaled y.1 y.2
    let builder ← builder.appendCstr (cText " z=")
    let builder ← builder.appendFixed2Scaled z.1 z.2
    let builder ← builder.appendCstr (cText " yaw=")
    let builder ← builder.appendFixed2Scaled yaw.1 yaw.2
    let builder ← builder.appendCstr (cText " pitch=")
    let builder ← builder.appendFixed2Scaled pitch.1 pitch.2
    return { action := .chat, chat := builder.text }
  | _, _, _, _, _ => mcSetChat "Known position unavailable."

def mcTimeResult (ticks : Int32) : Option McCommandResult := do
  let builder ← (McTextBuilder.init mcCommandTextCap).appendCstr (cText "Time set to ")
  let builder ← builder.appendI32 ticks
  let builder ← builder.appendChar 0x2e
  return { action := .time ticks, chat := builder.text }

def mcHandleTime (tokens : List (List UInt8)) : Option McCommandResult :=
  match tokens with
  | [_, time] =>
    if time = cText "day" then mcTimeResult 1000
    else if time = cText "noon" then mcTimeResult 6000
    else if time = cText "night" then mcTimeResult 13000
    else if time = cText "midnight" then mcTimeResult 18000
    else
      match mcParseTimeTicks time with
      | none => mcSetChat "Invalid number."
      | some ticks =>
        if ticks < 0 ∨ ticks > 24000 then mcSetChat "Time must be 0..24000."
        else mcTimeResult ticks
  | _ => mcSetChat "Usage: /time <day|noon|night|midnight|ticks>"

def mcWeatherResult (weather : McWeather) (name : String) : Option McCommandResult := do
  let builder ← (McTextBuilder.init mcCommandTextCap).appendCstr (cText "Weather set to ")
  let builder ← builder.appendCstr (cText name)
  let builder ← builder.appendChar 0x2e
  return { action := .weather weather, chat := builder.text }

def mcHandleWeather (tokens : List (List UInt8)) : Option McCommandResult :=
  match tokens with
  | [_, weather] =>
    if weather = cText "clear" then mcWeatherResult .clear "clear"
    else if weather = cText "rain" then mcWeatherResult .rain "rain"
    else if weather = cText "thunder" then mcWeatherResult .thunder "thunder"
    else mcSetChat "Usage: /weather <clear|rain|thunder>"
  | _ => mcSetChat "Usage: /weather <clear|rain|thunder>"

def unknownCommand : Option McCommandResult := mcSetChat "Unknown command. Use /help."

def mcCommandsHandleChat (username message : List UInt8) (ctx : McCommandContext) :
    Option McCommandResult :=
  if message.head? ≠ some 0x2f then mcPlainChat username message
  else
    let tokens := mcSplitSpaces message
    match tokens with
    | [] => unknownCommand
    | command :: _ =>
      if tokens.length > 5 then unknownCommand
      else if command = cText "/help" then
        if tokens.length ≠ 1 then unknownCommand
        else mcSetChat ("Commands: /help, /spawn, /tp <x> <y> <z>, /pos, " ++
          "/time <day|noon|night|midnight|ticks>, /weather <clear|rain|thunder>")
      else if command = cText "/spawn" then
        if tokens.length ≠ 1 then unknownCommand else mcHandleSpawn
      else if command = cText "/tp" then mcHandleTp tokens ctx
      else if command = cText "/pos" then
        if tokens.length ≠ 1 then unknownCommand else mcHandlePos ctx
      else if command = cText "/time" then mcHandleTime tokens
      else if command = cText "/weather" then mcHandleWeather tokens
      else unknownCommand

end StarrySky.Core
