import StarrySky.Base.Checked
import StarrySky.Bridge.LinkLemmas
import StarrySky.Link.CheckedDecode

/-! `decode_one` of `bridge/src/link.rs` with the accesses that could panic: none is out of
bounds. The decoded vector grows, so nothing bounds its writes. -/

namespace StarrySky.Bridge.Link
open StarrySky.Base StarrySky.Link

/-- `cobs_decode` with its read index. -/
def cobsDecodeChecked (input : List UInt8) (readIndex : ℕ) (decoded : List UInt8) :
    Checked (Except DecodeError (List UInt8)) :=
  if readIndex < input.length then
    (loadAt input readIndex).bind fun code =>
      if code = 0 then .ok (.error .cobs)
      else if code.toNat - 1 > input.length - (readIndex + 1) then .ok (.error .cobs)
      else
        (load input (readIndex + 1) (code.toNat - 1)).bind fun bytes =>
          if code ≠ 0xff ∧ readIndex + 1 + (code.toNat - 1) < input.length then
            cobsDecodeChecked input (readIndex + 1 + (code.toNat - 1)) (decoded ++ bytes ++ [0])
          else cobsDecodeChecked input (readIndex + 1 + (code.toNat - 1)) (decoded ++ bytes)
  else .ok (.ok decoded)
termination_by input.length - readIndex

theorem cobsDecodeChecked_eq {input decoded : List UInt8} {readIndex : ℕ}
    (hread : readIndex ≤ input.length) :
    cobsDecodeChecked input readIndex decoded =
      .ok (cobsDecodeLoop decoded (input.drop readIndex)) := by
  induction hn : input.length - readIndex using Nat.strong_induction_on
    generalizing readIndex decoded with
  | _ n ih =>
  rw [cobsDecodeChecked]
  by_cases hlt : readIndex < input.length
  case neg =>
    have hnil : input.drop readIndex = [] := List.drop_eq_nil_of_le (Nat.le_of_not_lt hlt)
    rw [if_neg hlt, hnil, cobsDecodeLoop]
  have hdrop : input.drop readIndex = input[readIndex] :: input.drop (readIndex + 1) :=
    List.drop_eq_getElem_cons hlt
  rw [if_pos hlt, loadAt_of_lt hlt, hdrop]
  generalize input[readIndex] = code at *
  show (if code = 0 then _ else _) = _
  rw [cobsDecodeLoop]
  dsimp only
  rw [List.length_drop]
  by_cases hzero : code = 0
  · rw [if_pos hzero, if_pos hzero]
  rw [if_neg hzero, if_neg hzero]
  by_cases hcopy : code.toNat - 1 > input.length - (readIndex + 1)
  · rw [if_pos hcopy, if_pos hcopy]
  rw [if_neg hcopy, if_neg hcopy]
  have hload : readIndex + 1 + (code.toNat - 1) ≤ input.length := by omega
  rw [load_of_le hload]
  show (if code ≠ 0xff ∧ readIndex + 1 + (code.toNat - 1) < input.length then _ else _) = _
  have hrest : (input.drop (readIndex + 1)).drop (code.toNat - 1) =
      input.drop (readIndex + 1 + (code.toNat - 1)) := List.drop_drop
  have hne : input.drop (readIndex + 1 + (code.toNat - 1)) ≠ [] ↔
      readIndex + 1 + (code.toNat - 1) < input.length := by
    rw [← List.length_pos_iff, List.length_drop]
    omega
  rw [hrest]
  by_cases hgap : code ≠ 0xff ∧ readIndex + 1 + (code.toNat - 1) < input.length
  · have hgap' : code ≠ 0xff ∧ input.drop (readIndex + 1 + (code.toNat - 1)) ≠ [] :=
      ⟨hgap.1, hne.mpr hgap.2⟩
    rw [if_pos hgap, if_pos hgap']
    exact ih _ (by omega) hload rfl
  · have hgap' : ¬(code ≠ 0xff ∧ input.drop (readIndex + 1 + (code.toNat - 1)) ≠ []) :=
      fun h => hgap ⟨h.1, hne.mp h.2⟩
    rw [if_neg hgap, if_neg hgap']
    exact ih _ (by omega) hload rfl

/-- `decode_one` behind the unstuffing, with its reads of the body. -/
def parseBodyChecked (body : List UInt8) : Checked (Except DecodeError Frame) :=
  if body.length < bodyHeaderLen + crcLen then .ok (.error .length)
  else do
    let version' ← loadAt body 0
    if version' ≠ version then .ok (.error (.version version'))
    else
      let len0 ← loadAt body 7
      let len1 ← loadAt body 8
      let payloadLen := (ofLeBytes len0 len1).toNat
      if payloadLen > maxPayload then .ok (.error .payloadTooLarge)
      else if body.length ≠ bodyHeaderLen + payloadLen + crcLen then .ok (.error .length)
      else
        let crc0 ← loadAt body (bodyHeaderLen + payloadLen)
        let crc1 ← loadAt body (bodyHeaderLen + payloadLen + 1)
        let covered ← load body 0 (bodyHeaderLen + payloadLen)
        if crc16 covered ≠ ofLeBytes crc0 crc1 then .ok (.error .crc)
        else
          let type ← loadAt body 1
          let flags ← loadAt body 2
          let seq0 ← loadAt body 3
          let seq1 ← loadAt body 4
          let ack0 ← loadAt body 5
          let ack1 ← loadAt body 6
          let payload ← load body bodyHeaderLen payloadLen
          .ok (.ok { frameType := .fromU8 type, flags, seq := ofLeBytes seq0 seq1,
                     ack := ofLeBytes ack0 ack1, payload })

theorem parseBody_of_lt {body : List UInt8} (h : body.length < bodyHeaderLen + crcLen) :
    parseBody body = .error .length := by
  unfold parseBody
  split
  · exact if_pos h
  · rfl

theorem parseBodyChecked_eq (body : List UInt8) :
    parseBodyChecked body = .ok (parseBody body) := by
  by_cases hshort : body.length < bodyHeaderLen + crcLen
  · rw [parseBodyChecked, if_pos hshort, parseBody_of_lt hshort]
  · obtain ⟨version', type, flags, seq0, seq1, ack0, ack1, len0, len1, rest, hbody⟩ :=
      @exists_header body (by simp only [bodyHeaderLen, crcLen] at hshort; omega)
    conv_rhs => rw [← hbody, parseBody]
    rw [parseBodyChecked]
    dsimp only
    rw [hbody]
    have hfields : loadAt body 0 = .ok version' ∧ loadAt body 1 = .ok type ∧
        loadAt body 2 = .ok flags ∧ loadAt body 3 = .ok seq0 ∧ loadAt body 4 = .ok seq1 ∧
        loadAt body 5 = .ok ack0 ∧ loadAt body 6 = .ok ack1 ∧ loadAt body 7 = .ok len0 ∧
        loadAt body 8 = .ok len1 := by
      rw [← hbody]
      exact ⟨rfl, rfl, rfl, rfl, rfl, rfl, rfl, rfl, rfl⟩
    obtain ⟨h0, h1, h2, h3, h4, h5, h6, h7, h8⟩ := hfields
    have hrest : rest = body.drop bodyHeaderLen := by
      rw [← hbody]
      rfl
    simp only [if_neg hshort, h0, h1, h2, h3, h4, h5, h6, h7, h8, bind, Except.bind]
    by_cases hversion : version' ≠ version
    · rw [if_pos hversion, if_pos hversion]
    rw [if_neg hversion, if_neg hversion]
    generalize hlen : (ofLeBytes len0 len1).toNat = payloadLen
    by_cases hmax : payloadLen > maxPayload
    · rw [if_pos hmax, if_pos hmax]
    rw [if_neg hmax, if_neg hmax]
    by_cases hexact : body.length ≠ bodyHeaderLen + payloadLen + crcLen
    · rw [if_pos hexact, if_pos hexact]
    rw [if_neg hexact, if_neg hexact]
    rw [not_not] at hexact
    obtain ⟨crc0, crc1, hcrc⟩ : ∃ crc0 crc1, rest.drop payloadLen = [crc0, crc1] := by
      apply List.length_eq_two.mp
      rw [hrest, List.length_drop, List.length_drop, hexact]
      show 9 + payloadLen + 2 - 9 - payloadLen = 2
      omega
    have hload0 : loadAt body (bodyHeaderLen + payloadLen) = .ok crc0 := by
      rw [← loadAt_drop, ← hrest, ← Nat.add_zero payloadLen, ← loadAt_drop, hcrc]
      rfl
    have hload1 : loadAt body (bodyHeaderLen + payloadLen + 1) = .ok crc1 := by
      rw [Nat.add_assoc, ← loadAt_drop, ← hrest, ← loadAt_drop, hcrc]
      rfl
    have hcovered : load body 0 (bodyHeaderLen + payloadLen) =
        .ok (body.take (bodyHeaderLen + payloadLen)) := by
      rw [load_of_le (by omega), List.drop_zero]
    have hpayload : load body bodyHeaderLen payloadLen = .ok (rest.take payloadLen) := by
      rw [load_of_le (by omega), hrest]
    simp only [hload0, hload1, hcovered, hpayload, hcrc]
    split_ifs <;> rfl

/-- `decode_one` with its slices of the input. -/
def decodeOneChecked (encodedWithDelimiter : List UInt8) : Checked (Except DecodeError Frame) :=
  if encodedWithDelimiter.length > maxEncodedLen ∨
      encodedWithDelimiter.getLast? ≠ some delimiter then .ok (.error .length)
  else
    (load encodedWithDelimiter 0 (encodedWithDelimiter.length - 1)).bind fun encoded =>
      if encoded = [] then .ok (.error .length)
      else if delimiter ∈ encoded then .ok (.error .cobs)
      else
        (cobsDecodeChecked encoded 0 []).bind fun body =>
          match body with
          | .error error => .ok (.error error)
          | .ok body => parseBodyChecked body

theorem decodeOneChecked_eq (encodedWithDelimiter : List UInt8) :
    decodeOneChecked encodedWithDelimiter = .ok (decodeOne encodedWithDelimiter) := by
  unfold decodeOneChecked decodeOne
  have hinit : encodedWithDelimiter.dropLast =
      encodedWithDelimiter.take (encodedWithDelimiter.length - 1) := List.dropLast_eq_take
  by_cases hbad : encodedWithDelimiter.length > maxEncodedLen ∨
      encodedWithDelimiter.getLast? ≠ some delimiter
  · rw [if_pos hbad, if_pos hbad]
  rw [if_neg hbad, if_neg hbad, load_of_le (by omega), List.drop_zero, ← hinit]
  show (if encodedWithDelimiter.dropLast = [] then _ else _) = _
  dsimp only
  by_cases hnil : encodedWithDelimiter.dropLast = []
  · rw [if_pos hnil, if_pos hnil]
  rw [if_neg hnil, if_neg hnil]
  by_cases hmem : delimiter ∈ encodedWithDelimiter.dropLast
  · rw [if_pos hmem, if_pos hmem]
  rw [if_neg hmem, if_neg hmem, cobsDecodeChecked_eq (Nat.zero_le _), List.drop_zero, cobsDecode]
  cases cobsDecodeLoop [] encodedWithDelimiter.dropLast with
  | error error => rfl
  | ok body => exact parseBodyChecked_eq body

end StarrySky.Bridge.Link
