import StarrySky.Base.JsonString
import StarrySky.Core.Server
import StarrySky.Core.Writer

/-! The JSON of a chat message: any text of the command buffer fits, and what stands between
the quotes is read back as the text. -/

namespace StarrySky.Core
open StarrySky.Base

def escapeBytes (text : List UInt8) : List UInt8 := text.flatMap jsonEscapeChar

def chatJson (escaped : List UInt8) : List UInt8 :=
  cText "\x7b\"text\":\"" ++ escaped ++ cText "\"\x7d"

theorem jsonAppend_of_lt {dstCap : ℕ} {dst text : List UInt8}
    (h : dst.length + text.length < dstCap) :
    text.foldlM (jsonAppendChar dstCap) dst = some (dst ++ text) := by
  induction text generalizing dst with
  | nil => rw [List.append_nil]; rfl
  | cons ch text ih =>
    rw [List.length_cons] at h
    have hroom : ¬ dst.length + 1 ≥ dstCap := by omega
    have htail : (dst ++ [ch]).length + text.length < dstCap := by
      rw [List.length_append, List.length_singleton]
      omega
    rw [List.foldlM_cons, jsonAppendChar, if_neg hroom]
    exact (ih htail).trans (by rw [List.append_assoc]; rfl)

theorem length_jsonEscapeChar_le (ch : UInt8) : (jsonEscapeChar ch).length ≤ 6 := by
  rw [jsonEscapeChar]
  split_ifs
  · exact le_rfl
  · exact Nat.le_of_ble_eq_true rfl
  · exact Nat.le_of_ble_eq_true rfl

theorem length_escapeBytes_le (text : List UInt8) :
    (escapeBytes text).length ≤ 6 * text.length := by
  induction text with
  | nil => exact le_rfl
  | cons ch text ih =>
    have hchar := length_jsonEscapeChar_le ch
    rw [escapeBytes, List.flatMap_cons, List.length_append, List.length_cons]
    rw [escapeBytes] at ih
    omega

theorem jsonEscape_of_lt {dstCap : ℕ} {dst text : List UInt8}
    (h : dst.length + (escapeBytes text).length < dstCap) :
    text.foldlM (fun dst ch => (jsonEscapeChar ch).foldlM (jsonAppendChar dstCap) dst) dst =
      some (dst ++ escapeBytes text) := by
  induction text generalizing dst with
  | nil => exact congrArg some (List.append_nil dst).symm
  | cons ch text ih =>
    have hsplit : escapeBytes (ch :: text) = jsonEscapeChar ch ++ escapeBytes text :=
      List.flatMap_cons
    rw [hsplit, List.length_append] at h
    have hchar : dst.length + (jsonEscapeChar ch).length < dstCap := by omega
    have htail : (dst ++ jsonEscapeChar ch).length + (escapeBytes text).length < dstCap := by
      rw [List.length_append]
      omega
    rw [List.foldlM_cons, jsonAppend_of_lt hchar, hsplit, ← List.append_assoc]
    exact ih htail

theorem jsonEscapeText_of_lt {dstCap : ℕ} {text : List UInt8}
    (h : (escapeBytes text).length < dstCap) :
    jsonEscapeText text dstCap = some (escapeBytes text) := by
  have hcap : dstCap ≠ 0 := Nat.ne_zero_of_lt h
  have hfrom : ([] : List UInt8).length + (escapeBytes text).length < dstCap := by
    rw [List.length_nil, Nat.zero_add]
    exact h
  rw [jsonEscapeText, if_neg hcap, jsonEscape_of_lt hfrom, List.nil_append]

theorem length_chatJson (escaped : List UInt8) :
    (chatJson escaped).length = 11 + escaped.length := by
  have hopen : (cText "\x7b\"text\":\"").length = 9 := by decide
  have hclose : (cText "\"\x7d").length = 2 := by decide
  rw [chatJson, List.length_append, List.length_append, hopen, hclose]
  omega

theorem buildChatJson_of_lt {dstCap : ℕ} {escaped : List UInt8}
    (h : (chatJson escaped).length < dstCap) :
    buildChatJson escaped dstCap = some (chatJson escaped) := by
  have hcap : dstCap ≠ 0 := Nat.ne_zero_of_lt h
  have hclose : (cText "\x7b\"text\":\"" ++ escaped).length + (cText "\"\x7d").length < dstCap :=
    List.length_append.symm.trans_lt h
  have hescaped : (cText "\x7b\"text\":\"").length + escaped.length < dstCap :=
    List.length_append.symm.trans_lt ((Nat.le_add_right _ _).trans_lt hclose)
  have hopen : ([] : List UInt8).length + (cText "\x7b\"text\":\"").length < dstCap :=
    (Nat.zero_add _).trans_lt ((Nat.le_add_right _ _).trans_lt hescaped)
  rw [buildChatJson, if_neg hcap]
  simp only [jsonAppendCstr, jsonAppend_of_lt hopen, List.nil_append, Option.bind_eq_bind,
    Option.bind_some, jsonAppend_of_lt hescaped, jsonAppend_of_lt hclose]
  rfl

def chatBody (text : List UInt8) : List UInt8 :=
  varintBytes 0x02 ++ McWriter.stringBytes (chatJson (escapeBytes text)) ++ [0]

theorem length_chatBody_le (text : List UInt8) : (chatBody text).length ≤ 18 + 6 * text.length := by
  have hid : (varintBytes 0x02).length = 1 := rfl
  have hstring := McWriter.length_stringBytes_le (chatJson (escapeBytes text))
  have hescaped := length_escapeBytes_le text
  rw [length_chatJson] at hstring
  rw [chatBody, List.length_append, List.length_append, hid, List.length_singleton]
  omega

theorem buildChatBody_of_lt {text : List UInt8} (h : text.length < mcCommandTextCap) :
    buildChatBody (mcCommandTextCap * 6 + 32) text =
      some { cap := mcCommandTextCap * 6 + 32, buf := chatBody text } := by
  have hcap : mcCommandTextCap = 160 := rfl
  have hmax : mcMaxStringBytes = 32767 := rfl
  have hescaped := length_escapeBytes_le text
  have hlength := length_chatJson (escapeBytes text)
  have hbody := length_chatBody_le text
  have htext : (escapeBytes text).length < mcCommandTextCap * 6 := by omega
  have hjson : (chatJson (escapeBytes text)).length < mcCommandTextCap * 6 + 16 := by omega
  have hstring : (chatJson (escapeBytes text)).length ≤ mcMaxStringBytes := by omega
  rw [chatBody, List.length_append, List.length_append] at hbody
  have hid : (McWriter.init (mcCommandTextCap * 6 + 32)).writeVarint 0x02 =
      some { cap := mcCommandTextCap * 6 + 32, buf := varintBytes 0x02 } :=
    McWriter.writeVarint_of_le (by rw [McWriter.init, List.length_nil]; dsimp only; omega)
  have hwrite (w : McWriter)
      (hw : w = { cap := mcCommandTextCap * 6 + 32, buf := varintBytes 0x02 }) :
      w.writeString (chatJson (escapeBytes text)) = some { w with
        buf := w.buf ++ McWriter.stringBytes (chatJson (escapeBytes text)) } := by
    apply McWriter.writeString_of_le hstring
    rw [hw]
    dsimp only
    omega
  simp only [buildChatBody, jsonEscapeText_of_lt htext, Option.bind_eq_bind, Option.bind_some,
    buildChatJson_of_lt hjson, hid, hwrite _ rfl, McWriter.writeU8]
  apply McWriter.writeBytes_of_le
  rw [List.length_append]
  dsimp only
  omega

theorem hexValue_hexDigit (ch : UInt8) : hexValue (hexDigit ch) = some (ch &&& 0x0f) := by
  have hall : ∀ n : Fin 256, hexValue (hexDigit (UInt8.ofNat n)) = some (UInt8.ofNat n &&& 0x0f) := by
    decide +kernel
  have hch := hall ⟨ch.toNat, ch.toNat_lt⟩
  rw [UInt8.ofNat_toNat] at hch
  exact hch

theorem hexDigits_value (ch : UInt8) :
    16 * (ch >>> 4 &&& 0x0f).toNat + (ch &&& 0x0f).toNat = ch.toNat := by
  have hall : ∀ n : Fin 256, 16 * (UInt8.ofNat n >>> 4 &&& 0x0f).toNat +
      (UInt8.ofNat n &&& 0x0f).toNat = (UInt8.ofNat n).toNat := by decide +kernel
  have hch := hall ⟨ch.toNat, ch.toNat_lt⟩
  rw [UInt8.ofNat_toNat] at hch
  exact hch

theorem isJsonContent_jsonEscapeChar (ch : UInt8) : IsJsonContent (jsonEscapeChar ch) := by
  rw [jsonEscapeChar]
  split_ifs with hlow hspecial
  · apply IsJsonContent.unicode [0x30, 0x30, hexDigit (ch >>> 4), hexDigit ch] rfl
    · intro digit hdigit
      have hzero : (hexValue 0x30).isSome := rfl
      rcases List.mem_cons.mp hdigit with rfl | hdigit
      · exact hzero
      rcases List.mem_cons.mp hdigit with rfl | hdigit
      · exact hzero
      rcases List.mem_cons.mp hdigit with rfl | hdigit
      · rw [hexValue_hexDigit]; rfl
      · rw [List.mem_singleton.mp hdigit, hexValue_hexDigit]; rfl
    · exact .nil
  · apply IsJsonContent.escape ch
    · rcases hspecial with rfl | rfl
      · exact List.mem_cons_self
      · exact List.mem_cons_of_mem _ List.mem_cons_self
    · exact .nil
  · rw [not_or] at hspecial
    exact .char ch (UInt8.not_lt.mp hlow) hspecial.1 hspecial.2 .nil

theorem isJsonContent_escapeBytes (text : List UInt8) : IsJsonContent (escapeBytes text) := by
  induction text with
  | nil => exact .nil
  | cons ch text ih =>
    rw [escapeBytes, List.flatMap_cons]
    exact (isJsonContent_jsonEscapeChar ch).append ih

theorem unescape_jsonEscapeChar (ch : UInt8) (content : List UInt8) :
    unescape (jsonEscapeChar ch ++ content) = (unescape content).map (ch :: ·) := by
  rw [jsonEscapeChar]
  split_ifs with hlow hspecial
  · have hvalue := hexDigits_value ch
    have hbyte : ch.toNat < 0x20 := hlow
    have hread := unescape_unicode (hexValue_hexDigit (ch >>> 4)) (hexValue_hexDigit ch)
      (by rw [hvalue]; omega) content
    rw [hvalue, UInt8.ofNat_toNat] at hread
    exact hread
  · exact unescape_escape hspecial content
  · rw [not_or] at hspecial
    exact unescape_char (UInt8.not_lt.mp hlow) hspecial.1 hspecial.2 content

theorem unescape_escapeBytes (text : List UInt8) : unescape (escapeBytes text) = some text := by
  induction text with
  | nil => rfl
  | cons ch text ih =>
    rw [escapeBytes, List.flatMap_cons, unescape_jsonEscapeChar]
    rw [escapeBytes] at ih
    rw [ih]
    rfl

theorem cString_append_nul {text : List UInt8} (h : ∀ ch ∈ text, ch ≠ 0) (rest : List UInt8) :
    cString (text ++ 0 :: rest) = text := by
  have htext : ∀ ch ∈ text, decide (ch ≠ 0) = true := fun ch hch => decide_eq_true (h ch hch)
  rw [cString, List.takeWhile_append_of_pos htext]
  exact List.append_nil text

theorem buildChatBody_faithful (text rest : List UInt8) (hnul : ∀ ch ∈ text, ch ≠ 0)
    (hlength : text.length ≤ 159) :
    ∃ escaped, buildChatBody (mcCommandTextCap * 6 + 32) (cString (text ++ 0 :: rest)) =
        some { cap := mcCommandTextCap * 6 + 32
               buf := varintBytes 0x02 ++ McWriter.stringBytes
                 (cText "\x7b\"text\":\"" ++ escaped ++ cText "\"\x7d") ++ [0] } ∧
      IsJsonContent escaped ∧ (∀ ch ∈ escaped, 0x20 ≤ ch) ∧ unescape escaped = some text := by
  have hcontent := isJsonContent_escapeBytes text
  refine ⟨escapeBytes text, ?_, hcontent, hcontent.printable, unescape_escapeBytes text⟩
  rw [cString_append_nul hnul rest]
  exact buildChatBody_of_lt (Nat.lt_succ_of_le hlength)

/-- A quote, a tab and the two bytes of a non-ASCII letter. -/
theorem buildChatBody_faithful_mixed :
    ∃ escaped, buildChatBody (mcCommandTextCap * 6 + 32)
        (cString ([0x22, 0x09, 0xc3, 0xa9] ++ 0 :: [0x41])) =
        some { cap := mcCommandTextCap * 6 + 32
               buf := varintBytes 0x02 ++ McWriter.stringBytes
                 (cText "\x7b\"text\":\"" ++ escaped ++ cText "\"\x7d") ++ [0] } ∧
      IsJsonContent escaped ∧ (∀ ch ∈ escaped, 0x20 ≤ ch) ∧
      unescape escaped = some [0x22, 0x09, 0xc3, 0xa9] :=
  buildChatBody_faithful [0x22, 0x09, 0xc3, 0xa9] [0x41] (by simp) (by decide)

end StarrySky.Core
