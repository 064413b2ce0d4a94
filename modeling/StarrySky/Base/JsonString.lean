import Mathlib

/-! What stands between the quotes of a JSON string, and the bytes it stands for. -/

namespace StarrySky.Base

abbrev quote : UInt8 := 0x22
abbrev backslash : UInt8 := 0x5c

def hexValue (ch : UInt8) : Option UInt8 :=
  if 0x30 ≤ ch ∧ ch ≤ 0x39 then some (ch - 0x30)
  else if 0x41 ≤ ch ∧ ch ≤ 0x46 then some (ch - 0x41 + 10)
  else if 0x61 ≤ ch ∧ ch ≤ 0x66 then some (ch - 0x61 + 10)
  else none

/-- No byte below 0x20, no quote outside an escape, and no escape that is cut off. -/
inductive IsJsonContent : List UInt8 → Prop
  | nil : IsJsonContent []
  | char (ch : UInt8) (hprintable : 0x20 ≤ ch) (hquote : ch ≠ quote) (hbackslash : ch ≠ backslash)
      {content : List UInt8} (hcontent : IsJsonContent content) : IsJsonContent (ch :: content)
  | escape (ch : UInt8) (hch : ch ∈ [quote, backslash, 0x2f, 0x62, 0x66, 0x6e, 0x72, 0x74])
      {content : List UInt8} (hcontent : IsJsonContent content) :
      IsJsonContent (backslash :: ch :: content)
  | unicode (digits : List UInt8) (hlength : digits.length = 4)
      (hdigits : ∀ digit ∈ digits, (hexValue digit).isSome)
      {content : List UInt8} (hcontent : IsJsonContent content) :
      IsJsonContent (backslash :: 0x75 :: digits ++ content)

/-- What a reader of the content waits for; `digits` are the digits that are left of a code
unit but for one. -/
inductive EscapeState
  | char
  | escape
  | unicode (digits value : ℕ)
deriving DecidableEq

/-- The text that is read, if its escapes are of single bytes. -/
def unescapeFrom : EscapeState → List UInt8 → Option (List UInt8)
  | .char, [] => some []
  | .escape, [] => none
  | .unicode _ _, [] => none
  | .char, ch :: content =>
    if ch = backslash then unescapeFrom .escape content
    else if ch < 0x20 ∨ ch = quote then none
    else (unescapeFrom .char content).map (ch :: ·)
  | .escape, ch :: content =>
    if ch = 0x75 then unescapeFrom (.unicode 3 0) content
    else if ch = quote ∨ ch = backslash then (unescapeFrom .char content).map (ch :: ·)
    else none
  | .unicode digits value, ch :: content =>
    match hexValue ch with
    | none => none
    | some digit =>
      match digits with
      | 0 =>
        if 16 * value + digit.toNat < 128 then
          (unescapeFrom .char content).map (UInt8.ofNat (16 * value + digit.toNat) :: ·)
        else none
      | digits + 1 => unescapeFrom (.unicode digits (16 * value + digit.toNat)) content

def unescape (content : List UInt8) : Option (List UInt8) := unescapeFrom .char content

theorem IsJsonContent.append {front back : List UInt8} (hfront : IsJsonContent front)
    (hback : IsJsonContent back) : IsJsonContent (front ++ back) := by
  induction hfront with
  | nil => exact hback
  | char ch hprintable hquote hbackslash _ ih => exact .char ch hprintable hquote hbackslash ih
  | escape ch hch _ ih => exact .escape ch hch ih
  | unicode digits hlength hdigits _ ih =>
    rw [List.append_assoc]
    exact .unicode digits hlength hdigits ih

theorem hexValue_printable {ch : UInt8} (h : (hexValue ch).isSome) : 0x20 ≤ ch := by
  rw [hexValue] at h
  split_ifs at h with hdigit hupper hlower
  · exact UInt8.le_trans (by decide) hdigit.1
  · exact UInt8.le_trans (by decide) hupper.1
  · exact UInt8.le_trans (by decide) hlower.1
  · exact absurd h (by decide)

theorem IsJsonContent.printable {content : List UInt8} (h : IsJsonContent content) :
    ∀ ch ∈ content, 0x20 ≤ ch := by
  induction h with
  | nil => exact fun _ h => absurd h List.not_mem_nil
  | char ch hprintable _ _ _ ih =>
    intro b hb
    rcases List.mem_cons.mp hb with rfl | hb
    · exact hprintable
    · exact ih b hb
  | escape ch hch _ ih =>
    intro b hb
    rcases List.mem_cons.mp hb with rfl | hb
    · decide
    rcases List.mem_cons.mp hb with rfl | hb
    · have hall : ∀ c ∈ [quote, backslash, 0x2f, 0x62, 0x66, 0x6e, 0x72, 0x74],
          (0x20 : UInt8) ≤ c := by simp [quote, backslash]
      exact hall b hch
    · exact ih b hb
  | unicode digits _ hdigits _ ih =>
    intro b hb
    rcases List.mem_append.mp hb with hb | hb
    · rcases List.mem_cons.mp hb with rfl | hb
      · decide
      rcases List.mem_cons.mp hb with rfl | hb
      · decide
      · exact hexValue_printable (hdigits b hb)
    · exact ih b hb

theorem unescape_char {ch : UInt8} (hprintable : 0x20 ≤ ch) (hquote : ch ≠ quote)
    (hbackslash : ch ≠ backslash) (content : List UInt8) :
    unescape (ch :: content) = (unescape content).map (ch :: ·) := by
  have hlow : ¬ ch < 0x20 := UInt8.not_lt.mpr hprintable
  rw [unescape, unescapeFrom, if_neg hbackslash, if_neg (not_or.mpr ⟨hlow, hquote⟩)]
  rfl

theorem unescape_escape {ch : UInt8} (hch : ch = quote ∨ ch = backslash) (content : List UInt8) :
    unescape (backslash :: ch :: content) = (unescape content).map (ch :: ·) := by
  have hunicode : ch ≠ 0x75 := by
    rcases hch with rfl | rfl <;> decide
  rw [unescape, unescapeFrom, if_pos rfl, unescapeFrom, if_neg hunicode, if_pos hch]
  rfl

theorem unescape_unicode {high low h l : UInt8} (hhigh : hexValue high = some h)
    (hlow : hexValue low = some l) (hbyte : 16 * h.toNat + l.toNat < 128) (content : List UInt8) :
    unescape (backslash :: 0x75 :: 0x30 :: 0x30 :: high :: low :: content) =
      (unescape content).map (UInt8.ofNat (16 * h.toNat + l.toNat) :: ·) := by
  have hzero : hexValue 0x30 = some 0 := rfl
  rw [unescape, unescapeFrom, if_pos rfl, unescapeFrom, if_pos rfl]
  simp only [unescapeFrom, hzero, hhigh, hlow, UInt8.toNat_zero, Nat.mul_zero, Nat.zero_add]
  rw [if_pos hbyte]
  rfl

end StarrySky.Base
