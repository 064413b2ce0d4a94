import StarrySky.Base.Checked
import StarrySky.Link.Parser

/-! The frame decoder of `core/src/mc_link.c` with all its memory accesses: none is out of
bounds, and the result is that of the decoder on lists. -/

namespace StarrySky.Link
open StarrySky.Base

/-- `cobs_decode` with its read index; `dst` is the part of the buffer that is written. -/
def cobsDecodeChecked (src : List UInt8) (dstCap readIndex : ℕ) (dst : List UInt8) :
    Checked (Option (List UInt8)) :=
  if readIndex < src.length then
    (loadAt src readIndex).bind fun code =>
      if code = 0 then .ok none
      else if code.toNat - 1 > src.length - (readIndex + 1) then .ok none
      else if dst.length + (code.toNat - 1) > dstCap then .ok none
      else
        (load src (readIndex + 1) (code.toNat - 1)).bind fun bytes =>
        (store dstCap dst bytes).bind fun dst =>
          if code ≠ 0xff ∧ readIndex + 1 + (code.toNat - 1) < src.length then
            if dst.length = dstCap then .ok none
            else
              (store dstCap dst [0]).bind fun dst =>
                cobsDecodeChecked src dstCap (readIndex + 1 + (code.toNat - 1)) dst
          else cobsDecodeChecked src dstCap (readIndex + 1 + (code.toNat - 1)) dst
  else .ok (some dst)
termination_by src.length - readIndex

theorem cobsDecodeChecked_eq {src dst : List UInt8} {dstCap readIndex : ℕ}
    (hread : readIndex ≤ src.length) :
    cobsDecodeChecked src dstCap readIndex dst =
      .ok (cobsDecodeLoop dstCap dst (src.drop readIndex)) := by
  induction hn : src.length - readIndex using Nat.strong_induction_on
    generalizing readIndex dst with
  | _ n ih =>
  rw [cobsDecodeChecked]
  by_cases hlt : readIndex < src.length
  case neg =>
    have hnil : src.drop readIndex = [] := List.drop_eq_nil_of_le (Nat.le_of_not_lt hlt)
    rw [if_neg hlt, hnil, cobsDecodeLoop]
  have hdrop : src.drop readIndex = src[readIndex] :: src.drop (readIndex + 1) :=
    List.drop_eq_getElem_cons hlt
  rw [if_pos hlt, loadAt_of_lt hlt, hdrop]
  generalize src[readIndex] = code at *
  show (if code = 0 then _ else _) = _
  rw [cobsDecodeLoop]
  dsimp only
  rw [List.length_drop]
  by_cases hzero : code = 0
  · rw [if_pos hzero, if_pos hzero]
  rw [if_neg hzero, if_neg hzero]
  by_cases hcopy : code.toNat - 1 > src.length - (readIndex + 1)
  · rw [if_pos hcopy, if_pos hcopy]
  rw [if_neg hcopy, if_neg hcopy]
  by_cases hcap : dst.length + (code.toNat - 1) > dstCap
  · rw [if_pos hcap, if_pos hcap]
  rw [if_neg hcap, if_neg hcap]
  -- both accesses are in bounds
  have hload : readIndex + 1 + (code.toNat - 1) ≤ src.length := by omega
  have hlength : ((src.drop (readIndex + 1)).take (code.toNat - 1)).length = code.toNat - 1 := by
    rw [List.length_take, List.length_drop]
    omega
  rw [load_of_le hload]
  show ((store dstCap dst ((src.drop (readIndex + 1)).take (code.toNat - 1))).bind _) = _
  rw [store_of_le (by rw [hlength]; omega)]
  show (if code ≠ 0xff ∧ readIndex + 1 + (code.toNat - 1) < src.length then _ else _) = _
  have hrest : (src.drop (readIndex + 1)).drop (code.toNat - 1) =
      src.drop (readIndex + 1 + (code.toNat - 1)) := List.drop_drop
  have hne : src.drop (readIndex + 1 + (code.toNat - 1)) ≠ [] ↔
      readIndex + 1 + (code.toNat - 1) < src.length := by
    rw [← List.length_pos_iff, List.length_drop]
    omega
  have hwritten : (dst ++ (src.drop (readIndex + 1)).take (code.toNat - 1)).length ≤ dstCap := by
    rw [List.length_append, hlength]
    omega
  rw [hrest]
  generalize dst ++ (src.drop (readIndex + 1)).take (code.toNat - 1) = written at *
  by_cases hgap : code ≠ 0xff ∧ readIndex + 1 + (code.toNat - 1) < src.length
  · have hgap' : code ≠ 0xff ∧ src.drop (readIndex + 1 + (code.toNat - 1)) ≠ [] :=
      ⟨hgap.1, hne.mpr hgap.2⟩
    rw [if_pos hgap, if_pos hgap']
    by_cases hfull : written.length = dstCap
    · rw [if_pos hfull, if_pos hfull]
    · have hroom : written.length + [(0 : UInt8)].length ≤ dstCap := by
        rw [List.length_singleton]
        omega
      rw [if_neg hfull, if_neg hfull, store_of_le hroom]
      exact ih _ (by omega) hload rfl
  · have hgap' : ¬(code ≠ 0xff ∧ src.drop (readIndex + 1 + (code.toNat - 1)) ≠ []) :=
      fun h => hgap ⟨h.1, hne.mp h.2⟩
    rw [if_neg hgap, if_neg hgap']
    exact ih _ (by omega) hload rfl

/-- `decode_frame_with_scratch` behind the unstuffing, with its reads of the body. -/
def parseBodyChecked (body : List UInt8) : Checked (Option McLinkFrame) :=
  if body.length < mcLinkBodyHeaderLen + mcLinkCrcLen then .ok none
  else do
    let version ← loadAt body 0
    if version ≠ mcLinkVersion then .ok none
    else
      let len0 ← loadAt body 7
      let len1 ← loadAt body 8
      let payloadLen := (ofLeBytes len0 len1).toNat
      if payloadLen > mcLinkMaxPayload then .ok none
      else if body.length ≠ mcLinkBodyHeaderLen + payloadLen + mcLinkCrcLen then .ok none
      else
        let crc0 ← loadAt body (mcLinkBodyHeaderLen + payloadLen)
        let crc1 ← loadAt body (mcLinkBodyHeaderLen + payloadLen + 1)
        let covered ← load body 0 (mcLinkBodyHeaderLen + payloadLen)
        if mcLinkCrc16 covered ≠ ofLeBytes crc0 crc1 then .ok none
        else
          let type ← loadAt body 1
          let flags ← loadAt body 2
          let seq0 ← loadAt body 3
          let seq1 ← loadAt body 4
          let ack0 ← loadAt body 5
          let ack1 ← loadAt body 6
          let bytes ← load body mcLinkBodyHeaderLen payloadLen
          let payload ← store mcLinkMaxPayload [] bytes
          .ok (some { type, flags, seq := ofLeBytes seq0 seq1, ack := ofLeBytes ack0 ack1, payload })

theorem loadAt_drop {α : Type} (xs : List α) (n i : ℕ) :
    loadAt (xs.drop n) i = loadAt xs (n + i) := by
  rw [loadAt, loadAt, List.getElem?_drop]

theorem exists_header {body : List UInt8} (h : 9 ≤ body.length) :
    ∃ version type flags seq0 seq1 ack0 ack1 len0 len1 rest,
      version :: type :: flags :: seq0 :: seq1 :: ack0 :: ack1 :: len0 :: len1 :: rest = body := by
  match body, h with
  | version :: type :: flags :: seq0 :: seq1 :: ack0 :: ack1 :: len0 :: len1 :: rest, _ =>
    exact ⟨version, type, flags, seq0, seq1, ack0, ack1, len0, len1, rest, rfl⟩

theorem parseBodyChecked_eq (body : List UInt8) :
    parseBodyChecked body = .ok (mcLinkParseBody body) := by
  by_cases hshort : body.length < mcLinkBodyHeaderLen + mcLinkCrcLen
  · have hnone : mcLinkParseBody body = none := by
      apply Option.eq_none_iff_forall_ne_some.mpr
      intro frame hframe
      have := (length_payload_mcLinkParseBody_le hframe).1
      simp only [mcLinkBodyHeaderLen, mcLinkCrcLen] at hshort
      omega
    rw [parseBodyChecked, if_pos hshort, hnone]
  · obtain ⟨version, type, flags, seq0, seq1, ack0, ack1, len0, len1, rest, hbody⟩ :=
      @exists_header body (by simp only [mcLinkBodyHeaderLen, mcLinkCrcLen] at hshort; omega)
    conv_rhs => rw [← hbody, mcLinkParseBody]
    rw [parseBodyChecked]
    dsimp only
    rw [hbody]
    have hfields : loadAt body 0 = .ok version ∧ loadAt body 1 = .ok type ∧
        loadAt body 2 = .ok flags ∧ loadAt body 3 = .ok seq0 ∧ loadAt body 4 = .ok seq1 ∧
        loadAt body 5 = .ok ack0 ∧ loadAt body 6 = .ok ack1 ∧ loadAt body 7 = .ok len0 ∧
        loadAt body 8 = .ok len1 := by
      rw [← hbody]
      exact ⟨rfl, rfl, rfl, rfl, rfl, rfl, rfl, rfl, rfl⟩
    obtain ⟨h0, h1, h2, h3, h4, h5, h6, h7, h8⟩ := hfields
    have hrest : rest = body.drop mcLinkBodyHeaderLen := by
      rw [← hbody]
      rfl
    simp only [if_neg hshort, h0, h1, h2, h3, h4, h5, h6, h7, h8, bind, Except.bind]
    by_cases hversion : version ≠ mcLinkVersion
    · rw [if_pos hversion, if_pos hversion]
    rw [if_neg hversion, if_neg hversion]
    generalize hlen : (ofLeBytes len0 len1).toNat = payloadLen
    by_cases hmax : payloadLen > mcLinkMaxPayload
    · rw [if_pos hmax, if_pos hmax]
    rw [if_neg hmax, if_neg hmax]
    by_cases hexact : body.length ≠ mcLinkBodyHeaderLen + payloadLen + mcLinkCrcLen
    · rw [if_pos hexact, if_pos hexact]
    rw [if_neg hexact, if_neg hexact]
    rw [not_not] at hexact
    -- what is left behind the payload is the checksum
    obtain ⟨crc0, crc1, hcrc⟩ : ∃ crc0 crc1, rest.drop payloadLen = [crc0, crc1] := by
      apply List.length_eq_two.mp
      rw [hrest, List.length_drop, List.length_drop, hexact]
      show 9 + payloadLen + 2 - 9 - payloadLen = 2
      omega
    have hload0 : loadAt body (mcLinkBodyHeaderLen + payloadLen) = .ok crc0 := by
      rw [← loadAt_drop, ← hrest, ← Nat.add_zero payloadLen, ← loadAt_drop, hcrc]
      rfl
    have hload1 : loadAt body (mcLinkBodyHeaderLen + payloadLen + 1) = .ok crc1 := by
      rw [Nat.add_assoc, ← loadAt_drop, ← hrest, ← loadAt_drop, hcrc]
      rfl
    have hcovered : load body 0 (mcLinkBodyHeaderLen + payloadLen) =
        .ok (body.take (mcLinkBodyHeaderLen + payloadLen)) := by
      rw [load_of_le (by omega), List.drop_zero]
    have hpayload : load body mcLinkBodyHeaderLen payloadLen = .ok (rest.take payloadLen) := by
      rw [load_of_le (by omega), hrest]
    have hstore : store mcLinkMaxPayload [] (rest.take payloadLen) = .ok (rest.take payloadLen) := by
      apply store_of_le
      rw [List.length_nil, Nat.zero_add]
      exact (List.length_take_le _ _).trans (Nat.le_of_not_lt hmax)
    simp only [hload0, hload1, hcovered, hpayload, hstore, hcrc]
    split_ifs <;> rfl

/-- `decode_frame_with_scratch` with the accesses to its input and to the body. -/
def decodeFrameChecked (src : List UInt8) (bodyCap : ℕ) : Checked (Option McLinkFrame) :=
  if src.length = 0 then .ok none
  else if src.length > mcLinkMaxEncodedLen then .ok none
  else
    (loadAt src (src.length - 1)).bind fun last =>
      if last ≠ mcLinkDelimiter then .ok none
      else if src.length - 1 = 0 ∨ src.length - 1 > mcLinkMaxEncodedWithoutDelimiter then .ok none
      else
        (searchFrom mcLinkDelimiter src 0 (src.length - 1)).bind fun found =>
          if found then .ok none
          else
            (load src 0 (src.length - 1)).bind fun encoded =>
            (cobsDecodeChecked encoded bodyCap 0 []).bind fun body =>
              match body with
              | none => .ok none
              | some body => parseBodyChecked body

theorem decodeFrameChecked_eq (src : List UInt8) (bodyCap : ℕ) :
    decodeFrameChecked src bodyCap = .ok (decodeFrameWithScratch src bodyCap) := by
  unfold decodeFrameChecked decodeFrameWithScratch
  by_cases hnil : src.length = 0
  · rw [List.length_eq_zero_iff.mp hnil]
    rfl
  have hpos : src.length - 1 < src.length := by omega
  have hlast : src.getLast? = some src[src.length - 1] := by
    rw [List.getLast?_eq_getElem?, List.getElem?_eq_getElem hpos]
  have hinit : src.dropLast = src.take (src.length - 1) := List.dropLast_eq_take
  have hlength : src.dropLast.length = src.length - 1 := List.length_dropLast
  rw [if_neg hnil]
  by_cases hlong : src.length > mcLinkMaxEncodedLen
  · rw [if_pos hlong, if_pos (.inl hlong)]
  rw [if_neg hlong, loadAt_of_lt hpos]
  show (if src[src.length - 1] ≠ mcLinkDelimiter then _ else _) = _
  rw [hlast]
  generalize src[src.length - 1] = last
  by_cases hdelim : last ≠ mcLinkDelimiter
  · rw [if_pos hdelim, if_pos (.inr fun h => hdelim (Option.some.inj h))]
  have hheader : ¬(src.length > mcLinkMaxEncodedLen ∨ some last ≠ some mcLinkDelimiter) := by
    rw [not_or, not_not, not_not.mp hdelim]
    exact ⟨hlong, rfl⟩
  rw [if_neg hdelim, if_neg hheader]
  dsimp only
  rw [hlength]
  by_cases hbounds : src.length - 1 = 0 ∨ src.length - 1 > mcLinkMaxEncodedWithoutDelimiter
  · rw [if_pos hbounds, if_pos hbounds]
  rw [if_neg hbounds, if_neg hbounds, searchFrom_eq _ (by omega)]
  show (if decide (mcLinkDelimiter ∈ (src.drop 0).take (src.length - 1)) = true then _ else _) = _
  rw [List.drop_zero, ← hinit]
  by_cases hmem : mcLinkDelimiter ∈ src.dropLast
  · rw [if_pos (decide_eq_true hmem), if_pos hmem]
  rw [if_neg (mt of_decide_eq_true hmem), if_neg hmem, load_of_le (by omega), List.drop_zero, ← hinit]
  show (cobsDecodeChecked src.dropLast bodyCap 0 []).bind _ = _
  rw [cobsDecodeChecked_eq (Nat.zero_le _), List.drop_zero, cobsDecode]
  cases cobsDecodeLoop bodyCap [] src.dropLast with
  | none => rfl
  | some body => exact parseBodyChecked_eq body

end StarrySky.Link
