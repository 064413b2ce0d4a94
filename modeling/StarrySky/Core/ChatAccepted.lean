import StarrySky.Core.ChatJson
import StarrySky.Core.PlayPacket

/-! Every message that is decoded is answered, unless the echo of a plain message does not fit
into the buffer for the answer. -/

namespace StarrySky.Core
open StarrySky.Base

variable {cfg : McConfig} {server : McServer} {tx : TxRing} {body message : List UInt8}

namespace McTextBuilder

instance : Bounded McTextBuilder := ⟨McTextBuilder.cap, fun builder => builder.text.length⟩

theorem appendChar_adds (builder : McTextBuilder) (ch : UInt8)
    (h : builder.text.length + 1 < builder.cap) : Adds 1 builder (builder.appendChar ch) := by
  rw [appendChar, if_neg (Nat.not_le.mpr h)]
  refine ⟨_, rfl, rfl, ?_⟩
  show (builder.text ++ [ch]).length ≤ builder.text.length + 1
  rw [List.length_append, List.length_singleton]

theorem appendCstr_eq (builder : McTextBuilder) (text : List UInt8) :
    builder.appendCstr text =
      if builder.text.length + text.length < builder.cap then
        some { builder with text := builder.text ++ text }
      else none := by
  rw [appendCstr, appendBytes]
  by_cases h : builder.text.length + text.length < builder.cap
  · rw [if_pos h, if_neg (by omega)]
  · rw [if_neg h, if_pos (by omega)]

theorem appendCstr_adds {builder : McTextBuilder} {text : List UInt8}
    (h : builder.text.length + text.length < builder.cap) :
    Adds text.length builder (builder.appendCstr text) := by
  rw [appendCstr_eq, if_pos h]
  refine ⟨_, rfl, rfl, ?_⟩
  show (builder.text ++ text).length ≤ builder.text.length + text.length
  rw [List.length_append]

theorem length_u32Digits_le (value : UInt32) (room : ℕ) (digits : List UInt8) :
    (u32Digits value room digits).length ≤ room + digits.length := by
  induction room generalizing value digits with
  | zero => rw [u32Digits, Nat.zero_add]
  | succ room ih =>
    rw [u32Digits]
    split_ifs
    · apply (ih _ _).trans
      rw [List.length_cons]
      omega
    · exact Nat.le_add_left _ _

theorem appendU32_adds {builder : McTextBuilder} (value : UInt32)
    (h : builder.text.length + 10 < builder.cap) : Adds 10 builder (builder.appendU32 value) := by
  have hdigits := length_u32Digits_le value 10 []
  rw [List.length_nil] at hdigits
  rw [appendU32]
  split_ifs
  · exact (appendChar_adds builder 0x30 (by omega)).mono (by decide)
  · have hroom : builder.text.length + (u32Digits value 10 []).length < builder.cap := by omega
    exact (adds_foldlM appendChar_adds hroom).mono hdigits

theorem appendI32_adds {builder : McTextBuilder} (value : Int32)
    (h : builder.text.length + 11 < builder.cap) : Adds 11 builder (builder.appendI32 value) := by
  rw [appendI32]
  split_ifs
  · apply (appendChar_adds builder 0x2d (by omega)).bind
    intro signed (hcap : signed.cap = builder.cap)
      (hsize : signed.text.length ≤ builder.text.length + 1)
    exact (appendU32_adds _ (by omega)).trans hcap hsize
  · exact (appendU32_adds _ (by omega)).mono (by decide)

theorem appendFixed2Scaled_adds {builder : McTextBuilder} (negative : Bool) (scaled : UInt32)
    (h : builder.text.length + 14 < builder.cap) :
    Adds 14 builder (builder.appendFixed2Scaled negative scaled) := by
  have hunsigned (signed : McTextBuilder) (hroom : signed.text.length + 13 < signed.cap) :
      Adds 13 signed (signed.appendU32 (scaled / 100) >>= fun builder =>
        builder.appendChar 0x2e >>= fun builder =>
        builder.appendChar (0x30 + (scaled % 100 / 10).toUInt8) >>= fun builder =>
        builder.appendChar (0x30 + (scaled % 100 % 10).toUInt8)) := by
    apply (appendU32_adds (scaled / 100) (by omega)).bind
    intro whole (hcap : whole.cap = signed.cap)
      (hsize : whole.text.length ≤ signed.text.length + 10)
    apply (appendChar_adds whole 0x2e (by omega)).bind
    intro point (hcapPoint : point.cap = whole.cap)
      (hsizePoint : point.text.length ≤ whole.text.length + 1)
    apply (appendChar_adds point _ (by omega)).bind
    intro tenths (hcapTenths : tenths.cap = point.cap)
      (hsizeTenths : tenths.text.length ≤ point.text.length + 1)
    have hlast := (appendChar_adds tenths (0x30 + (scaled % 100 % 10).toUInt8) (by omega)).trans
      hcapTenths hsizeTenths
    exact (hlast.trans hcapPoint hsizePoint).trans hcap hsize
  rw [appendFixed2Scaled]
  split_ifs
  · apply (appendChar_adds builder 0x2d (by omega)).bind
    intro signed (hcap : signed.cap = builder.cap)
      (hsize : signed.text.length ≤ builder.text.length + 1)
    exact (hunsigned signed (by omega)).trans hcap hsize
  · exact (hunsigned builder (by omega)).mono (by decide)

theorem appendNumber_bind {β : Type} {P : Option β → Prop} {next : McTextBuilder → Option β}
    {builder : McTextBuilder} {label : List UInt8} (number : Bool × UInt32)
    (hroom : builder.text.length + label.length + 14 < builder.cap)
    (hnext : ∀ b : McTextBuilder, b.cap = builder.cap →
      b.text.length ≤ builder.text.length + label.length + 14 → P (next b)) :
    P (builder.appendCstr label >>= fun b => b.appendFixed2Scaled number.1 number.2 >>= next) := by
  apply (appendCstr_adds (by omega)).bind
  intro labelled (hcap : labelled.cap = builder.cap)
    (hsize : labelled.text.length ≤ builder.text.length + label.length)
  apply (appendFixed2Scaled_adds number.1 number.2 (by omega)).bind
  intro numbered (hcapNumber : numbered.cap = labelled.cap)
    (hsizeNumber : numbered.text.length ≤ labelled.text.length + 14)
  exact hnext numbered (hcapNumber.trans hcap) (by omega)

end McTextBuilder

/-- A result whose message fits into its buffer. -/
def ChatFits (result : Option McCommandResult) : Prop :=
  ∃ r, result = some r ∧ r.chat.length < mcCommandTextCap

theorem mcCopyChat_fits (action : McCommandAction) {text : List UInt8}
    (h : text.length < mcCommandTextCap) : ChatFits (mcCopyChat action text) := by
  have hroom : (McTextBuilder.init mcCommandTextCap).text.length + text.length <
      (McTextBuilder.init mcCommandTextCap).cap := by
    rw [McTextBuilder.init, List.length_nil, Nat.zero_add]
    exact h
  refine ⟨{ action, chat := text }, ?_, h⟩
  rw [mcCopyChat, McTextBuilder.appendCstr_eq, if_pos hroom]
  rfl

theorem mcSetChat_fits {text : String} (h : (cText text).length < mcCommandTextCap) :
    ChatFits (mcSetChat text) := mcCopyChat_fits .chat h

theorem unknownCommand_fits : ChatFits unknownCommand := mcSetChat_fits (by decide)

theorem mcHandleTp_fits (tokens : List (List UInt8)) (ctx : McCommandContext) :
    ChatFits (mcHandleTp tokens ctx) := by
  rw [mcHandleTp.eq_def]
  split
  · split
    · split_ifs
      · exact mcSetChat_fits (by decide)
      · exact mcCopyChat_fits _ (by decide)
    · exact mcSetChat_fits (by decide)
  · exact mcSetChat_fits (by decide)

theorem mcHandlePos_fits (ctx : McCommandContext) : ChatFits (mcHandlePos ctx) := by
  have hlabels : (cText "Known position: x=").length = 18 ∧ (cText " y=").length = 3 ∧
      (cText " z=").length = 3 ∧ (cText " yaw=").length = 5 ∧
      (cText " pitch=").length = 7 := by decide
  obtain ⟨hx, hy, hz, hyaw, hpitch⟩ := hlabels
  have hcap : (McTextBuilder.init mcCommandTextCap).cap = 160 := rfl
  have hempty : (McTextBuilder.init mcCommandTextCap).text.length = 0 := rfl
  rw [mcHandlePos]
  split
  · apply McTextBuilder.appendNumber_bind (P := ChatFits) _ (by omega)
    intro atX hcapX hsizeX
    apply McTextBuilder.appendNumber_bind (P := ChatFits) _ (by omega)
    intro atY hcapY hsizeY
    apply McTextBuilder.appendNumber_bind (P := ChatFits) _ (by omega)
    intro atZ hcapZ hsizeZ
    apply McTextBuilder.appendNumber_bind (P := ChatFits) _ (by omega)
    intro atYaw hcapYaw hsizeYaw
    apply McTextBuilder.appendNumber_bind (P := ChatFits) _ (by omega)
    intro atPitch hcapPitch hsizePitch
    refine ⟨_, rfl, ?_⟩
    show atPitch.text.length < 160
    omega
  · exact mcSetChat_fits (by decide)

theorem sentence_fits (action : McCommandAction) {label : List UInt8} {n : ℕ}
    {append : McTextBuilder → Option McTextBuilder}
    (hroom : label.length + n + 1 < mcCommandTextCap)
    (happend : ∀ b : McTextBuilder, b.text.length + n < b.cap → Adds n b (append b)) :
    ChatFits ((McTextBuilder.init mcCommandTextCap).appendCstr label >>= fun builder =>
      append builder >>= fun builder => builder.appendChar 0x2e >>= fun builder =>
      some { action, chat := builder.text }) := by
  have hcap : (McTextBuilder.init mcCommandTextCap).cap = mcCommandTextCap := rfl
  have hempty : (McTextBuilder.init mcCommandTextCap).text.length = 0 := rfl
  apply (McTextBuilder.appendCstr_adds (by omega)).bind
  intro labelled (hcapLabel : labelled.cap = (McTextBuilder.init mcCommandTextCap).cap)
    (hsizeLabel : labelled.text.length ≤
      (McTextBuilder.init mcCommandTextCap).text.length + label.length)
  apply (happend labelled (by omega)).bind
  intro appended (hcapAppend : appended.cap = labelled.cap)
    (hsizeAppend : appended.text.length ≤ labelled.text.length + n)
  apply (McTextBuilder.appendChar_adds appended 0x2e (by omega)).bind
  intro ended _ (hsizeEnd : ended.text.length ≤ appended.text.length + 1)
  refine ⟨_, rfl, ?_⟩
  show ended.text.length < mcCommandTextCap
  omega

theorem mcTimeResult_fits (ticks : Int32) : ChatFits (mcTimeResult ticks) :=
  sentence_fits (.time ticks) (by decide) fun _ => McTextBuilder.appendI32_adds ticks

theorem mcWeatherResult_fits (weather : McWeather) {name : String}
    (h : (cText name).length < 100) : ChatFits (mcWeatherResult weather name) := by
  have hlabel : (cText "Weather set to ").length = 15 := by decide
  have hroom : (cText "Weather set to ").length + (cText name).length + 1 < mcCommandTextCap := by
    have hcap : mcCommandTextCap = 160 := rfl
    omega
  exact sentence_fits (.weather weather) hroom fun _ => McTextBuilder.appendCstr_adds

theorem mcHandleTime_fits (tokens : List (List UInt8)) : ChatFits (mcHandleTime tokens) := by
  rw [mcHandleTime.eq_def]
  split
  · split_ifs
    · exact mcTimeResult_fits 1000
    · exact mcTimeResult_fits 6000
    · exact mcTimeResult_fits 13000
    · exact mcTimeResult_fits 18000
    · split
      · exact mcSetChat_fits (by decide)
      · split_ifs
        · exact mcSetChat_fits (by decide)
        · exact mcTimeResult_fits _
  · exact mcSetChat_fits (by decide)

theorem mcHandleWeather_fits (tokens : List (List UInt8)) : ChatFits (mcHandleWeather tokens) := by
  rw [mcHandleWeather.eq_def]
  split
  · split_ifs
    · exact mcWeatherResult_fits .clear (by decide)
    · exact mcWeatherResult_fits .rain (by decide)
    · exact mcWeatherResult_fits .thunder (by decide)
    · exact mcSetChat_fits (by decide)
  · exact mcSetChat_fits (by decide)

theorem mcCommandsHandleChat_fits (username : List UInt8) (ctx : McCommandContext)
    (hslash : message.head? = some 0x2f) :
    ChatFits (mcCommandsHandleChat username message ctx) := by
  rw [mcCommandsHandleChat, if_neg (not_not.mpr hslash)]
  dsimp only
  cases mcSplitSpaces message with
  | nil => exact unknownCommand_fits
  | cons command arguments =>
    dsimp only
    split_ifs
    · exact unknownCommand_fits
    · exact unknownCommand_fits
    · exact mcSetChat_fits (by decide +kernel)
    · exact unknownCommand_fits
    · exact mcCopyChat_fits _ (by decide)
    · exact mcHandleTp_fits _ ctx
    · exact unknownCommand_fits
    · exact mcHandlePos_fits ctx
    · exact mcHandleTime_fits _
    · exact mcHandleWeather_fits _
    · exact unknownCommand_fits

theorem mcPlainChat_eq {username : List UInt8} (husername : username.length ≤ 16)
    (message : List UInt8) :
    mcPlainChat username message =
      if 3 + username.length + message.length < mcCommandTextCap then
        some { action := .chat, chat := [0x3c] ++ username ++ cText "> " ++ message }
      else none := by
  have hcap : mcCommandTextCap = 160 := rfl
  have hlabel : (cText "> ").length = 2 := by decide
  have hopen : (McTextBuilder.init mcCommandTextCap).appendChar 0x3c =
      some { cap := mcCommandTextCap, text := [0x3c] } := rfl
  have hname : [(0x3c : UInt8)].length + username.length < mcCommandTextCap := by
    rw [List.length_singleton]
    omega
  have hclose : ([0x3c] ++ username).length + (cText "> ").length < mcCommandTextCap := by
    rw [List.length_append, List.length_singleton]
    omega
  have htext : ([0x3c] ++ username ++ cText "> ").length = 3 + username.length := by
    rw [List.length_append, List.length_append, List.length_singleton]
    omega
  simp only [mcPlainChat, hopen, Option.bind_eq_bind, Option.bind_some,
    McTextBuilder.appendCstr_eq, if_pos hname, if_pos hclose, htext]
  split_ifs
  · rfl
  · rfl

theorem buildPositionBody_adds (position : McCommandPosition) :
    Adds 38 (McWriter.init 64) (buildPositionBody 64 position) := by
  have hcap : (McWriter.init 64).cap = 64 := rfl
  have hempty : (McWriter.init 64).buf.length = 0 := rfl
  apply (McWriter.writeVarint_adds 0x08 (by omega)).bind
  intro w₁ (hcap₁ : w₁.cap = (McWriter.init 64).cap)
    (h₁ : w₁.buf.length ≤ (McWriter.init 64).buf.length + 5)
  apply (McWriter.writeU64_adds position.x (by omega)).bind
  intro w₂ (hcap₂ : w₂.cap = w₁.cap) (h₂ : w₂.buf.length ≤ w₁.buf.length + 8)
  apply (McWriter.writeU64_adds position.y (by omega)).bind
  intro w₃ (hcap₃ : w₃.cap = w₂.cap) (h₃ : w₃.buf.length ≤ w₂.buf.length + 8)
  apply (McWriter.writeU64_adds position.z (by omega)).bind
  intro w₄ (hcap₄ : w₄.cap = w₃.cap) (h₄ : w₄.buf.length ≤ w₃.buf.length + 8)
  apply (McWriter.writeU32_adds position.yaw (by omega)).bind
  intro w₅ (hcap₅ : w₅.cap = w₄.cap) (h₅ : w₅.buf.length ≤ w₄.buf.length + 4)
  apply (McWriter.writeU32_adds position.pitch (by omega)).bind
  intro w₆ (hcap₆ : w₆.cap = w₅.cap) (h₆ : w₆.buf.length ≤ w₅.buf.length + 4)
  obtain ⟨w, hw, hcapW, hsize⟩ := McWriter.writeU8_adds w₆ (0 : Int8).toUInt8 (by omega)
  have hsize : w.buf.length ≤ w₆.buf.length + 1 := hsize
  have hcapW : w.cap = w₆.cap := hcapW
  refine ⟨w, hw, ?_, ?_⟩
  · show w.cap = (McWriter.init 64).cap
    omega
  · show w.buf.length ≤ (McWriter.init 64).buf.length + 38
    omega

theorem buildTimeBody_adds {bodyCap : ℕ} (hroom : 21 < bodyCap) (timeOfDay : Int32) :
    Adds 21 (McWriter.init bodyCap) (buildTimeBody bodyCap timeOfDay) := by
  have hcap : (McWriter.init bodyCap).cap = bodyCap := rfl
  have hempty : (McWriter.init bodyCap).buf.length = 0 := rfl
  apply (McWriter.writeVarint_adds 0x03 (by omega)).bind
  intro w₁ (hcap₁ : w₁.cap = (McWriter.init bodyCap).cap)
    (h₁ : w₁.buf.length ≤ (McWriter.init bodyCap).buf.length + 5)
  apply (McWriter.writeU64_adds (0 : Int64).toUInt64 (by omega)).bind
  intro w₂ (hcap₂ : w₂.cap = w₁.cap) (h₂ : w₂.buf.length ≤ w₁.buf.length + 8)
  have hlast := McWriter.writeU64_adds timeOfDay.toInt64.toUInt64 (w := w₂) (by omega)
  exact (hlast.trans hcap₂ h₂).trans hcap₁ h₁

theorem buildWeatherBodies_length (weather : McWeather) :
    ∃ ws, buildWeatherBodies weather = some ws ∧ ws.length = 3 ∧
      ∀ w ∈ ws, w.buf.length ≤ mcCommandTextCap * 6 + 32 := by
  cases weather
  · exact ⟨_, rfl, rfl, by decide⟩
  · exact ⟨_, rfl, rfl, by decide⟩
  · exact ⟨_, rfl, rfl, by decide⟩

theorem commandResultBodies_of_lt {result : McCommandResult}
    (h : result.chat.length < mcCommandTextCap) :
    ∃ packets, commandResultBodies result = some packets ∧ packets.length ≤ 4 ∧
      ∀ body ∈ packets, body.length ≤ mcCommandTextCap * 6 + 32 := by
  have hcap : mcCommandTextCap = 160 := rfl
  have hchat := buildChatBody_of_lt h
  have hlength := length_chatBody_le result.chat
  have hshort : (chatBody result.chat).length ≤ mcCommandTextCap * 6 + 32 := by omega
  obtain ⟨action, text⟩ := result
  cases action with
  | chat =>
    refine ⟨[chatBody text], ?_, Nat.le_add_left 1 3, ?_⟩
    · simp only [commandResultBodies, hchat, Option.bind_eq_bind, Option.bind_some,
        Option.pure_def]
    · rintro body hbody
      rw [List.mem_singleton.mp hbody]
      exact hshort
  | teleport position =>
    obtain ⟨w, hw, _, hsize⟩ := buildPositionBody_adds position
    change w.buf.length ≤ 0 + 38 at hsize
    refine ⟨[w.buf, chatBody text], ?_, Nat.le_add_left 2 2, ?_⟩
    · simp only [commandResultBodies, hchat, hw, Option.bind_eq_bind, Option.bind_some,
        Option.pure_def]
    · intro body hbody
      rcases List.mem_cons.mp hbody with rfl | hbody
      · omega
      · rw [List.mem_singleton.mp hbody]
        exact hshort
  | time timeOfDay =>
    obtain ⟨w, hw, _, hsize⟩ := @buildTimeBody_adds 64 (by decide) timeOfDay
    change w.buf.length ≤ 0 + 21 at hsize
    refine ⟨[w.buf, chatBody text], ?_, Nat.le_add_left 2 2, ?_⟩
    · simp only [commandResultBodies, hchat, hw, Option.bind_eq_bind, Option.bind_some,
        Option.pure_def]
    · intro body hbody
      rcases List.mem_cons.mp hbody with rfl | hbody
      · omega
      · rw [List.mem_singleton.mp hbody]
        exact hshort
  | weather weather =>
    obtain ⟨ws, hws, hcount, hsize⟩ := buildWeatherBodies_length weather
    refine ⟨ws.map (·.buf) ++ [chatBody text], ?_, ?_, ?_⟩
    · simp only [commandResultBodies, hchat, hws, Option.bind_eq_bind, Option.bind_some,
        Option.pure_def]
    · rw [List.length_append, List.length_map, hcount]
      exact le_rfl
    · intro body hbody
      rcases List.mem_append.mp hbody with hbody | hbody
      · obtain ⟨w, hw, rfl⟩ := List.mem_map.mp hbody
        exact hsize w hw
      · rw [List.mem_singleton.mp hbody]
        exact hshort

theorem length_autoFrame_le (cfg : McConfig) (server : McServer) (body : List UInt8) :
    (autoFrame cfg server body).length ≤ body.length + 6 := by
  rw [autoFrame]
  split_ifs
  · exact length_compressedFrame_zero_le body
  · exact (length_plainFrame_le body).trans (Nat.le_succ _)

theorem autoFrame_length_pos (cfg : McConfig) (server : McServer) (body : List UInt8) :
    0 < (autoFrame cfg server body).length := by
  have hplain (body : List UInt8) : 0 < (plainFrame body).length := by
    have hpos := (isVarint_varintBytes (Int32.ofNat body.length)).length_pos
    rw [plainFrame, List.length_append]
    omega
  rw [autoFrame]
  split_ifs
  · exact hplain _
  · exact hplain _

theorem addPacketAutoFrameLens_of_le {needed : ℕ} {packets : List (List UInt8)}
    (hbodies : ∀ body ∈ packets, body.length ≤ mcMaxPacketBody) :
    addPacketAutoFrameLens cfg server needed packets =
      some (needed + ((packets.map (autoFrame cfg server)).flatten).length) := by
  induction packets generalizing needed with
  | nil => rfl
  | cons body packets ih =>
    have hbody := hbodies body List.mem_cons_self
    have hpos : (autoFrame cfg server body).length ≠ 0 := (autoFrame_length_pos cfg server body).ne'
    rw [addPacketAutoFrameLens, packetAutoFrameLen_eq cfg server hbody, if_neg hpos,
      ih fun b hb => hbodies b (List.mem_cons_of_mem _ hb), List.map_cons, List.flatten_cons,
      List.length_append, Nat.add_assoc]

theorem length_autoFrames_le {packets : List (List UInt8)} {bound : ℕ}
    (hbodies : ∀ body ∈ packets, body.length ≤ bound) :
    ((packets.map (autoFrame cfg server)).flatten).length ≤ packets.length * (bound + 6) := by
  induction packets with
  | nil => exact Nat.zero_le _
  | cons body packets ih =>
    have hframe := length_autoFrame_le cfg server body
    have hbody := hbodies body List.mem_cons_self
    have hrest := ih fun b hb => hbodies b (List.mem_cons_of_mem _ hb)
    rw [List.map_cons, List.flatten_cons, List.length_append, List.length_cons, Nat.add_mul,
      Nat.one_mul]
    omega

theorem queuePacketBatch_of_le {packets : List (List UInt8)} {bound : ℕ}
    (hbodies : ∀ body ∈ packets, body.length ≤ bound) (hbound : bound ≤ mcMaxPacketBody)
    (hfree : packets.length * (bound + 6) ≤ tx.free) :
    (queuePacketBatch cfg server tx packets).1 = true := by
  have hmax : ∀ body ∈ packets, body.length ≤ mcMaxPacketBody :=
    fun body hbody => (hbodies body hbody).trans hbound
  have hfits : ((packets.map (autoFrame cfg server)).flatten).length ≤ tx.free :=
    (length_autoFrames_le hbodies).trans hfree
  rw [queuePacketBatch, addPacketAutoFrameLens_of_le hmax, Nat.zero_add]
  dsimp only
  rw [if_neg (Nat.not_lt.mpr hfits), queuePackets_of_le hmax hfits]

/-- With an empty ring a decoded message is handled just when there is an answer that fits. -/
theorem handleChat_iff {pos : ℕ}
    (hmessage : readChatBody body pos mcCommandTextCap = some (message, body.length))
    (hfree : 49152 ≤ tx.free) (result : Option McCommandResult)
    (hresult : mcCommandsHandleChat (cString server.username) message
      (buildCommandContext server) = result) (hchat : result = none ∨ ChatFits result) :
    (handleChat cfg server body pos tx).1 = true ↔ ChatFits result := by
  rw [handleChat, hmessage]
  dsimp only
  rw [if_neg (not_not.mpr rfl), hresult]
  rcases hchat with rfl | hfits
  · constructor
    · intro h
      cases h
    · rintro ⟨_, h, _⟩
      cases h
  · refine ⟨fun _ => hfits, fun _ => ?_⟩
    obtain ⟨r, rfl, hlength⟩ := hfits
    obtain ⟨packets, hpackets, hcount, hbodies⟩ := commandResultBodies_of_lt hlength
    have hbound : mcCommandTextCap * 6 + 32 ≤ mcMaxPacketBody := by decide
    have hroom : packets.length * (mcCommandTextCap * 6 + 32 + 6) ≤ tx.free :=
      (Nat.mul_le_mul_right _ hcount).trans (le_trans (by decide) hfree)
    have hqueued : (queuePacketBatch cfg server tx packets).1 = true :=
      queuePacketBatch_of_le hbodies hbound hroom
    dsimp only
    rw [executeCommandResult, hpackets]
    dsimp only
    rw [hqueued, Bool.not_true, if_neg Bool.false_ne_true]

theorem handlePacket_chat_iff (cfg : McConfig) {server : McServer} {body message : List UInt8}
    {tx : TxRing} {pos : ℕ} (hplay : server.state = .play)
    (hname : (cString server.username).length ≤ mcMaxUsername)
    (hread : readVarintBody body 0 = some (0x01, pos))
    (hmessage : readChatBody body pos mcCommandTextCap = some (message, body.length))
    (hcap : tx.ring.cap = 49152) (hempty : tx.ring.items = []) :
    (handlePacket cfg server body tx).1 = true ↔
      message.head? = some 0x2f ∨
        3 + (cString server.username).length + message.length ≤ 159 := by
  have hfree : 49152 ≤ tx.free := by
    rw [TxRing.free, Ringbuf.free, Ringbuf.len, hempty, hcap]
    exact le_rfl
  rw [handlePacket_chat hplay hread]
  by_cases hslash : message.head? = some 0x2f
  · have hfits := mcCommandsHandleChat_fits (cString server.username)
      (buildCommandContext server) hslash
    rw [handleChat_iff hmessage hfree _ rfl (.inr hfits)]
    exact ⟨fun _ => .inl hslash, fun _ => hfits⟩
  · have hplain : mcCommandsHandleChat (cString server.username) message
        (buildCommandContext server) = mcPlainChat (cString server.username) message := by
      rw [mcCommandsHandleChat, if_pos hslash]
    have hecho := mcPlainChat_eq hname message
    by_cases hroom : 3 + (cString server.username).length + message.length < mcCommandTextCap
    · rw [if_pos hroom] at hecho
      have hfits : ChatFits (mcPlainChat (cString server.username) message) := by
        refine ⟨_, hecho, ?_⟩
        have hlabel : (cText "> ").length = 2 := by decide
        simp only [List.length_append, List.length_singleton, hlabel]
        omega
      rw [handleChat_iff hmessage hfree _ hplain (.inr hfits)]
      exact ⟨fun _ => .inr (Nat.le_of_lt_succ hroom), fun _ => hfits⟩
    · rw [if_neg hroom] at hecho
      rw [handleChat_iff hmessage hfree _ (hplain.trans hecho) (.inl rfl)]
      constructor
      · rintro ⟨_, h, _⟩
        cases h
      · intro h
        exact absurd (Nat.lt_succ_of_le (h.resolve_left hslash)) hroom

/-- The player Bob says hello. -/
def helloBody : List UInt8 := [1, 5, 0x68, 0x65, 0x6c, 0x6c, 0x6f]

theorem handlePacket_chat_iff_hello :
    (handlePacket compressionConfig loginDone.2.1 helloBody ⟨.init 49152, []⟩).1 = true ↔
      ([0x68, 0x65, 0x6c, 0x6c, 0x6f] : List UInt8).head? = some 0x2f ∨
        3 + (cString loginDone.2.1.username).length +
          ([0x68, 0x65, 0x6c, 0x6c, 0x6f] : List UInt8).length ≤ 159 := by
  have hname : cString loginDone.2.1.username = [0x42, 0x6f, 0x62] := by decide +kernel
  have hplay : loginDone.2.1.state = .play := by decide +kernel
  exact handlePacket_chat_iff compressionConfig hplay (by rw [hname]; decide)
    (show readVarintBody helloBody 0 = some (0x01, 1) by decide +kernel) (by decide +kernel) rfl rfl

/-- A plain message of 154 bytes. -/
def longChatBody : List UInt8 := [1, 0x9a, 1] ++ List.replicate 154 0x61

theorem handlePacket_chat_tooLong :
    loginDone.2.1.state = .play ∧ cString loginDone.2.1.username = [0x42, 0x6f, 0x62] ∧
      readVarintBody longChatBody 0 = some (0x01, 1) ∧
      readChatBody longChatBody 1 mcCommandTextCap =
        some (List.replicate 154 0x61, longChatBody.length) ∧
      (handlePacket compressionConfig loginDone.2.1 longChatBody ⟨.init 49152, []⟩).1 = false := by
  decide +kernel

end StarrySky.Core
