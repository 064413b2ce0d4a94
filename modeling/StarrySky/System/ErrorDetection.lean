import StarrySky.Base.Crc
import StarrySky.System.LinkCodec

/-! The frame check of link v2 against errors on the line: what it detects for certain. -/

namespace StarrySky.System
open StarrySky.Base StarrySky.Base.Crc StarrySky.Link

/-- The bits of a byte, the most significant first. -/
def bitsOf (byte : UInt8) : List Bool :=
  [7, 6, 5, 4, 3, 2, 1, 0].map fun i => byte.toBitVec.getLsbD i

def bits (bytes : List UInt8) : List Bool := bytes.flatMap bitsOf

/-- A body with the bits of `error` flipped. -/
def corrupt (body error : List UInt8) : List UInt8 := body.zipWith (· ^^^ ·) error

def weight (error : List UInt8) : ℕ := (bits error).count true

/-- All bits of `error` lie within sixteen consecutive ones before the check. -/
def IsBurst (error : List UInt8) : Prop :=
  ∃ start, ∀ i, (bits error)[i]? = some true →
    start ≤ i ∧ i < start + 16 ∧ i < 8 * (error.length - mcLinkCrcLen)

abbrev generator : BitVec 16 := mcLinkCrcPoly.toBitVec

theorem toBitVec_crc16Bit (crc : UInt16) :
    (crc16Bit crc).toBitVec = shift generator crc.toBitVec := by
  have htop : (crc &&& 0x8000).toBitVec = if crc.toBitVec.msb then 0x8000#16 else 0#16 := by
    rw [BitVec.msb_eq_getLsbD_last]
    exact BitVec.and_twoPow crc.toBitVec 15
  have hmsb : crc &&& 0x8000 ≠ 0 ↔ crc.toBitVec.msb = true := by
    rw [ne_eq, ← UInt16.toBitVec_inj, htop]
    cases crc.toBitVec.msb <;> decide
  rw [crc16Bit, shift]
  by_cases h : crc &&& 0x8000 ≠ 0
  · rw [if_pos h, if_pos (hmsb.mp h)]
    rfl
  · rw [if_neg h, if_neg (fun h' => h (hmsb.mpr h'))]
    rfl

theorem toBitVec_iterate_crc16Bit (crc : UInt16) (n : ℕ) :
    (crc16Bit^[n] crc).toBitVec = (shift generator)^[n] crc.toBitVec := by
  induction n generalizing crc with
  | zero => rfl
  | succ n ih => rw [Function.iterate_succ_apply, ih, toBitVec_crc16Bit, Function.iterate_succ_apply]

theorem word_bitsOf (byte : UInt8) :
    word 16 (bitsOf byte) = (byte.toUInt16 <<< 8).toBitVec := by
  have hall : ∀ i : Fin 256, word 16 (bitsOf (UInt8.ofNat i)) =
      ((UInt8.ofNat i).toUInt16 <<< 8).toBitVec := by
    decide +kernel
  simpa using hall ⟨byte.toNat, byte.toNat_lt⟩

theorem toBitVec_crc16Byte (crc : UInt16) (byte : UInt8) :
    (crc16Byte crc byte).toBitVec = register generator crc.toBitVec (bitsOf byte) := by
  -- The code adds a whole byte before it shifts eight times.
  rw [crc16Byte, toBitVec_iterate_crc16Bit, UInt16.toBitVec_xor, ← word_bitsOf,
    register_eq_iterate_shift _ _ _ (by simp [bitsOf])]
  rfl

theorem toBitVec_crc16Update (bytes : List UInt8) (crc : UInt16) :
    (crc16Update crc bytes).toBitVec = register generator crc.toBitVec (bits bytes) := by
  induction bytes generalizing crc with
  | nil => rfl
  | cons byte bytes ih =>
    show (crc16Update (crc16Byte crc byte) bytes).toBitVec = _
    rw [ih, toBitVec_crc16Byte, ← register_append]
    rfl

theorem length_bits (bytes : List UInt8) : (bits bytes).length = 8 * bytes.length := by
  induction bytes with
  | nil => rfl
  | cons byte bytes ih =>
    rw [bits, List.flatMap_cons, List.length_append, ← bits, ih, List.length_cons]
    simp only [bitsOf, List.length_map, List.length_cons, List.length_nil]
    ring

theorem bits_append (xs ys : List UInt8) : bits (xs ++ ys) = bits xs ++ bits ys :=
  List.flatMap_append

theorem bitsOf_xor (a b : UInt8) : bitsOf (a ^^^ b) = (bitsOf a).zipWith xor (bitsOf b) := by
  simp only [bitsOf, UInt8.toBitVec_xor, BitVec.getLsbD_xor, List.map_cons, List.map_nil,
    List.zipWith_cons_cons, List.zipWith_nil_left]

theorem bits_corrupt (xs ys : List UInt8) :
    bits (corrupt xs ys) = (bits xs).zipWith xor (bits ys) := by
  induction xs generalizing ys with
  | nil => rfl
  | cons x xs ih =>
    cases ys with
    | nil => simp [corrupt, bits]
    | cons y ys =>
      show bitsOf (x ^^^ y) ++ bits (corrupt xs ys) =
        (bitsOf x ++ bits xs).zipWith xor (bitsOf y ++ bits ys)
      rw [ih, bitsOf_xor, List.zipWith_append]
      rfl

theorem getLsbD_ofLeBytes (lo hi : UInt8) (i : ℕ) :
    (ofLeBytes lo hi).toBitVec.getLsbD i =
      if i < 8 then lo.toBitVec.getLsbD i else hi.toBitVec.getLsbD (i - 8) := by
  have hshift : (hi.toUInt16 <<< 8).toBitVec = hi.toUInt16.toBitVec <<< 8 := rfl
  rw [ofLeBytes, UInt16.toBitVec_or, hshift, BitVec.getLsbD_or, BitVec.getLsbD_shiftLeft,
    UInt8.toBitVec_toUInt16, UInt8.toBitVec_toUInt16, BitVec.getLsbD_setWidth,
    BitVec.getLsbD_setWidth]
  by_cases hlow : i < 8
  · simp [hlow, show i < 16 by omega]
  · have hlo : lo.toBitVec.getLsbD i = false := BitVec.getLsbD_of_ge _ _ (by omega)
    by_cases hi16 : i < 16
    · simp [hlow, hlo, hi16, show i - 8 < 16 by omega]
    · have hhi : hi.toBitVec.getLsbD (i - 8) = false := BitVec.getLsbD_of_ge _ _ (by omega)
      simp [hlow, hlo, hi16, hhi]

theorem word_check (lo hi : UInt8) :
    word 16 (bits [hi, lo]) = (ofLeBytes lo hi).toBitVec := by
  -- The check is stored with its low byte first; the register holds the high byte on top.
  apply BitVec.eq_of_getLsbD_eq
  intro i hlt
  rw [getLsbD_ofLeBytes, getLsbD_word _ i hlt]
  interval_cases i <;> rfl

theorem ofLeBytes_xor (a b c d : UInt8) :
    (ofLeBytes (a ^^^ b) (c ^^^ d)).toBitVec =
      (ofLeBytes a c).toBitVec ^^^ (ofLeBytes b d).toBitVec := by
  apply BitVec.eq_of_getLsbD_eq
  intro i _
  rw [BitVec.getLsbD_xor, getLsbD_ofLeBytes, getLsbD_ofLeBytes, getLsbD_ofLeBytes]
  split <;> simp

theorem generator_order {k : ℕ} (hpos : 0 < k) (hk : k < 8 * mcLinkMaxBodyLen) :
    (shift generator)^[k] (BitVec.twoPow 16 0) ≠ BitVec.twoPow 16 0 := by
  -- The generator keeps 1 away from itself for longer than the longest body has bits.
  have havoids : avoids (shift generator) (BitVec.twoPow 16 0) 4063 (BitVec.twoPow 16 0) = true := by
    decide +kernel
  have hbits : 8 * mcLinkMaxBodyLen = 4064 := rfl
  exact iterate_ne_of_avoids havoids hpos (by omega)

/-- What an error must look like to be detected for certain. -/
def IsDetectable (error : List UInt8) : Prop :=
  Odd (weight error) ∨ weight error = 2 ∨ (0 < weight error ∧ IsBurst error)

theorem weight_append (xs ys : List UInt8) : weight (xs ++ ys) = weight xs + weight ys := by
  rw [weight, bits_append, List.count_append]
  rfl

theorem weight_cons (x : UInt8) (xs : List UInt8) :
    weight (x :: xs) = (bitsOf x).count true + weight xs := List.count_append

theorem weight_pair_comm (a b : UInt8) : weight [a, b] = weight [b, a] := by
  simp only [weight_cons]
  omega

/-- An error that counts as detectable leaves the register, fed with the check's high byte
first, away from zero. -/
theorem register_ne_zero {message : List UInt8} {lo hi : UInt8}
    (hlength : message.length + mcLinkCrcLen ≤ mcLinkMaxBodyLen)
    (h : IsDetectable (message ++ [lo, hi])) :
    register generator 0#16 (bits (message ++ [hi, lo])) ≠ 0#16 := by
  have hweight : (bits (message ++ [hi, lo])).count true = weight (message ++ [lo, hi]) := by
    rw [weight_append, weight_pair_comm lo hi, ← weight_append]
    rfl
  rcases h with hodd | htwo | ⟨hpos, start, hburst⟩
  · have hparity : parity generator = 1 := by decide
    exact register_odd_ne_zero (by decide) hparity (hweight ▸ hodd)
  · apply register_two_ne_zero (by decide) (by decide) _ (hweight.trans htwo)
    intro k hk hlt
    refine generator_order hk (hlt.trans_le ?_)
    rw [length_bits]
    simpa [Nat.mul_le_mul_left_iff, mcLinkCrcLen] using hlength
  · -- the two orders of the check differ only where the burst has no bits
    have hsame : ∀ i : ℕ, (bits (message ++ [hi, lo]))[i]? = some true →
        (bits (message ++ [lo, hi]))[i]? = some true := by
      intro i hset
      have hswap : true ∉ bits [lo, hi] := by
        intro hmem
        obtain ⟨j, hj⟩ := List.getElem?_of_mem hmem
        have hbit : (bits (message ++ [lo, hi]))[(bits message).length + j]? = some true := by
          rw [bits_append, List.getElem?_append_right (Nat.le_add_right _ _), Nat.add_sub_cancel_left]
          exact hj
        have hbefore := (hburst _ hbit).2.2
        rw [length_bits, List.length_append] at hbefore
        simp only [mcLinkCrcLen, List.length_cons, List.length_nil] at hbefore
        omega
      have hnone : true ∉ bits [hi, lo] := by
        rw [← List.count_eq_zero] at hswap ⊢
        exact (weight_pair_comm hi lo).trans hswap
      rw [bits_append, List.getElem?_append] at hset ⊢
      split_ifs at hset ⊢ with hlt
      · exact hset
      · exact absurd (List.mem_of_getElem? hset) hnone
    apply @register_burst_ne_zero _ _ (by decide) _ start
    · intro i hset
      exact ⟨(hburst i (hsame i hset)).1, (hburst i (hsame i hset)).2.1⟩
    · rw [← hweight] at hpos
      exact List.count_pos_iff.mp hpos

theorem check_of_mcLinkParseBody {message : List UInt8} {lo hi : UInt8} {frame : McLinkFrame}
    (h : mcLinkParseBody (message ++ [lo, hi]) = some frame) :
    mcLinkCrc16 message = ofLeBytes lo hi := by
  -- What the decoder compares: the check over everything before it against the one that came.
  generalize hbody : message ++ [lo, hi] = body at h
  unfold mcLinkParseBody at h
  split at h
  case h_2 => contradiction
  case h_1 version type flags seq0 seq1 ack0 ack1 len0 len1 rest =>
    dsimp only at h
    generalize (ofLeBytes len0 len1).toNat = payloadLen at h
    generalize hheader :
      [version, type, flags, seq0, seq1, ack0, ack1, len0, len1] = header at h
    have hcons : version :: type :: flags :: seq0 :: seq1 :: ack0 :: ack1 :: len0 :: len1 :: rest =
        header ++ rest := by
      rw [← hheader]
      rfl
    have hnine : header.length = mcLinkBodyHeaderLen := by
      rw [← hheader]
      rfl
    split_ifs at h with hshort hversion hmax hexact
    rw [hcons] at hbody hexact h
    -- the length that was accepted puts the check at the end
    have hmessage : message.length = mcLinkBodyHeaderLen + payloadLen := by
      rw [not_not, ← hbody, List.length_append] at hexact
      simp only [mcLinkCrcLen, List.length_cons, List.length_nil] at hexact
      omega
    have htail : rest.drop payloadLen = [lo, hi] := by
      rw [← @List.drop_left _ header rest, List.drop_drop, hnine, ← hmessage, ← hbody,
        List.drop_left]
    rw [htail] at h
    dsimp only at h
    split_ifs at h with hcheck
    rw [not_not, ← hmessage, ← hbody, List.take_left] at hcheck
    exact hcheck

theorem mcLinkParseBody_corrupt {type : UInt8} {seq ack : UInt16} {payload error : List UInt8}
    (hpayload : payload.length ≤ mcLinkMaxPayload)
    (hlength : error.length = (mcLinkBody type seq ack payload).length)
    (herror : IsDetectable error) :
    mcLinkParseBody (corrupt (mcLinkBody type seq ack payload) error) = none := by
  generalize hmessage : mcLinkHeader type seq ack payload.length ++ payload = message
  have hbody : mcLinkBody type seq ack payload = message ++ leBytes (mcLinkCrc16 message) := by
    rw [← hmessage]
    rfl
  have hcount : message.length + 2 = payload.length + 11 := by
    rw [← length_mcLinkBody type seq ack payload, hbody, List.length_append, length_leBytes]
  rw [hbody] at hlength ⊢
  -- the error on the message and the two bytes of the error on the check
  obtain ⟨flips, check, rfl, hflips⟩ : ∃ flips check, error = flips ++ check ∧
      flips.length = message.length := by
    refine ⟨error.take message.length, error.drop message.length,
      (List.take_append_drop _ _).symm, ?_⟩
    rw [List.length_take, hlength, List.length_append]
    omega
  have hcheck : check.length = 2 := by
    rw [List.length_append, List.length_append, length_leBytes] at hlength
    omega
  obtain ⟨lo, hi, rfl⟩ := List.length_eq_two.mp hcheck
  rw [Option.eq_none_iff_forall_ne_some]
  intro frame hframe
  generalize hcrc : mcLinkCrc16 message = crc at hframe
  have hsplit : corrupt (message ++ leBytes crc) (flips ++ [lo, hi]) =
      corrupt message flips ++ [crc.toUInt8 ^^^ lo, (crc >>> 8).toUInt8 ^^^ hi] := by
    rw [corrupt, List.zipWith_append hflips.symm]
    rfl
  rw [hsplit] at hframe
  have haccepted := congrArg UInt16.toBitVec (check_of_mcLinkParseBody hframe)
  have hzeros : mcLinkCrcInit.toBitVec ^^^ 0#16 = mcLinkCrcInit.toBitVec := BitVec.xor_zero
  have hbits : (bits message).length = (bits flips).length := by
    rw [length_bits, length_bits, hflips]
  have hclean : register generator mcLinkCrcInit.toBitVec (bits message) = crc.toBitVec := by
    rw [← toBitVec_crc16Update, ← hcrc]
    rfl
  rw [ofLeBytes_xor, ofLeBytes_leBytes, mcLinkCrc16, toBitVec_crc16Update, bits_corrupt, ← hzeros,
    register_xor _ _ _ _ _ hbits, hclean, BitVec.xor_right_inj] at haccepted
  -- the error by itself would have to be a word of the code
  apply @register_ne_zero flips lo hi _ herror
  · rw [bits_append, register_append, haccepted,
      register_eq_iterate_shift _ _ _ (by rw [length_bits]; rfl), word_check, BitVec.xor_self,
      iterate_shift_zero]
  · rw [hflips]
    simp only [mcLinkMaxPayload, mcLinkCrcLen, mcLinkMaxBodyLen, mcLinkBodyHeaderLen] at hpayload ⊢
    omega

/-- The unstuffed body of a frame that one of the encoders made. -/
def IsEncodedBody (body : List UInt8) : Prop :=
  ∃ frame, cobsDecode frame.dropLast mcLinkMaxBodyLen = some body ∧
    ((∃ type seq ack payload, mcLinkEncode type seq ack payload mcLinkMaxFrameLen = some frame) ∨
      ∃ frameType seq ack payload, Bridge.Link.encode frameType seq ack payload = some frame)

theorem cobsDecode_encode_mcLinkBody {payload : List UInt8}
    (h : payload.length ≤ mcLinkMaxPayload) (type : UInt8) (seq ack : UInt16) :
    cobsDecode (mcLinkFrameBytes type seq ack payload).dropLast mcLinkMaxBodyLen =
      some (mcLinkBody type seq ack payload) := by
  rw [mcLinkFrameBytes, List.dropLast_concat]
  apply cobsDecodeLoop_of_decodes (Cobs.decodes_encode _)
  rw [length_mcLinkBody]
  simp only [mcLinkMaxPayload, mcLinkMaxBodyLen, mcLinkBodyHeaderLen, mcLinkCrcLen,
    List.length_nil] at h ⊢
  omega

theorem IsEncodedBody.exists_eq {body : List UInt8} (h : IsEncodedBody body) :
    ∃ type seq ack payload, payload.length ≤ mcLinkMaxPayload ∧
      body = mcLinkBody type seq ack payload := by
  obtain ⟨frame, hbody, hmade⟩ := h
  have hframe : ∃ type seq ack payload, payload.length ≤ mcLinkMaxPayload ∧
      frame = mcLinkFrameBytes type seq ack payload := by
    rcases hmade with ⟨type, seq, ack, payload, hencode⟩ | ⟨frameType, seq, ack, payload, hencode⟩
    · exact ⟨type, seq, ack, payload, mcLinkEncode_eq_some hencode⟩
    · exact ⟨frameType.toU8, seq, ack, payload, Bridge.Link.encode_eq_some hencode⟩
  obtain ⟨type, seq, ack, payload, hpayload, rfl⟩ := hframe
  rw [cobsDecode_encode_mcLinkBody hpayload] at hbody
  exact ⟨type, seq, ack, payload, hpayload, (Option.some.inj hbody).symm⟩

theorem mcLinkDecodeFrame_encode_eq_none {body : List UInt8} (h : mcLinkParseBody body = none) :
    mcLinkDecodeFrame (Bridge.Link.cobsEncode body ++ [mcLinkDelimiter]) = none := by
  rw [Option.eq_none_iff_forall_ne_some]
  intro frame hframe
  unfold mcLinkDecodeFrame decodeFrameWithScratch at hframe
  dsimp only at hframe
  split_ifs at hframe
  obtain ⟨decoded, hdecoded, hparse⟩ := Option.bind_eq_some_iff.mp hframe
  -- whatever fits into the scratch buffer is the body itself
  rw [List.dropLast_concat, Bridge.Link.cobsEncode_eq] at hdecoded
  have hbridge := ((cobsDecodeLoop_iff (Nat.zero_le _)).mp hdecoded).1
  rw [Bridge.Link.cobsDecodeLoop_of_decodes (Cobs.decodes_encode body), List.nil_append] at hbridge
  cases hbridge
  exact absurd hparse (by simp [h])

theorem decode_corrupt {body error : List UInt8} (hbody : IsEncodedBody body)
    (hlength : error.length = body.length) (herror : IsDetectable error) :
    mcLinkDecodeFrame (Bridge.Link.cobsEncode (corrupt body error) ++ [mcLinkDelimiter]) = none ∧
      ∃ decodeError, Bridge.Link.decodeOne
        (Bridge.Link.cobsEncode (corrupt body error) ++ [Bridge.Link.delimiter]) =
          .error decodeError := by
  obtain ⟨type, seq, ack, payload, hpayload, rfl⟩ := hbody.exists_eq
  have hnone := mcLinkDecodeFrame_encode_eq_none (mcLinkParseBody_corrupt hpayload hlength herror)
  refine ⟨hnone, ?_⟩
  cases hone : Bridge.Link.decodeOne
    (Bridge.Link.cobsEncode (corrupt (mcLinkBody type seq ack payload) error) ++ [0]) with
  | error decodeError => exact ⟨decodeError, rfl⟩
  | ok frame =>
    obtain ⟨mcFrame, hsome, _⟩ := exists_mcLinkDecodeFrame hone
    exact absurd (hnone.symm.trans hsome) (by simp)

/-- A PING without payload, with two bits of its type and one of its sequence number flipped. -/
theorem decode_corrupt_ping :
    mcLinkDecodeFrame (Bridge.Link.cobsEncode
        (corrupt (mcLinkBody 0x0b 0 0 []) [0, 0x81, 0, 0x40, 0, 0, 0, 0, 0, 0, 0]) ++ [0]) = none ∧
      ∃ decodeError, Bridge.Link.decodeOne (Bridge.Link.cobsEncode
        (corrupt (mcLinkBody 0x0b 0 0 []) [0, 0x81, 0, 0x40, 0, 0, 0, 0, 0, 0, 0]) ++ [0]) =
          .error decodeError := by
  apply decode_corrupt
  · refine ⟨mcLinkFrameBytes 0x0b 0 0 [], cobsDecode_encode_mcLinkBody (by decide) _ _ _, .inl ?_⟩
    exact ⟨_, _, _, _, mcLinkEncode_of_le (by decide) (Nat.le_refl _) _ _ _⟩
  · rw [length_mcLinkBody]
    rfl
  · exact .inl (by decide)

end StarrySky.System
