import StarrySky.Base.Pieces
import StarrySky.Base.Varint
import StarrySky.Bridge.C2m

/-! What the filter forwards, for a client stream cut in any way. -/

namespace StarrySky.Bridge
open StarrySky.Base

theorem or_shiftLeft {value index : ℕ} (h : value < 2 ^ (7 * index)) (x : ℕ) :
    value ||| (x <<< (7 * index)) = value + 2 ^ (7 * index) * x := by
  rw [Nat.or_comm, ← Nat.shiftLeft_add_eq_or_of_lt h, Nat.shiftLeft_eq, Nat.add_comm, Nat.mul_comm]

theorem readMinecraftVarintLoop_of_isVarint {bytes : List UInt8} {v : ℕ} (h : IsVarint bytes v)
    (rest : List UInt8) (value index : ℕ) (hvalue : value < 2 ^ (7 * index)) :
    readMinecraftVarintLoop value index (bytes ++ rest) =
      some (value + 2 ^ (7 * index) * v, index + bytes.length) := by
  induction h generalizing value index with
  | last byte hlt =>
    rw [List.cons_append, readMinecraftVarintLoop, if_pos ((and_80_eq_zero byte).mpr hlt),
      and_7f_toNat, or_shiftLeft hvalue, Nat.mod_eq_of_lt hlt]
    rfl
  | @more byte hge bytes v hbytes ih =>
    have hbyte := byte.toNat_lt
    have hmod : byte.toNat % 128 = byte.toNat - 128 := by omega
    have hpow : 2 ^ (7 * (index + 1)) = 128 * 2 ^ (7 * index) := by
      rw [Nat.mul_add, Nat.pow_add, Nat.mul_comm]
    have hlt : value + 2 ^ (7 * index) * (byte.toNat - 128) < 2 ^ (7 * (index + 1)) := by
      have : 2 ^ (7 * index) * (byte.toNat - 128) ≤ 2 ^ (7 * index) * 127 :=
        Nat.mul_le_mul_left _ (by omega)
      omega
    rw [List.cons_append, readMinecraftVarintLoop,
      if_neg (fun h => absurd ((and_80_eq_zero byte).mp h) (by omega)), and_7f_toNat,
      or_shiftLeft hvalue, hmod, ih _ _ hlt, hpow]
    simp only [List.length_cons, Option.some.injEq, Prod.mk.injEq]
    refine ⟨?_, by omega⟩
    rw [Nat.mul_add, Nat.add_assoc, ← Nat.mul_assoc, Nat.mul_comm 128 (2 ^ (7 * index))]

theorem isVarint_of_readMinecraftVarintLoop {bytes : List UInt8} {value index v w : ℕ}
    (hvalue : value < 2 ^ (7 * index))
    (h : readMinecraftVarintLoop value index bytes = some (v, w)) :
    ∃ encoding rest x, bytes = encoding ++ rest ∧ IsVarint encoding x ∧
      w = index + encoding.length := by
  induction bytes generalizing value index with
  | nil => simp [readMinecraftVarintLoop] at h
  | cons byte bytes ih =>
    by_cases hlt : byte.toNat < 128
    · refine ⟨[byte], bytes, byte.toNat, rfl, .last byte hlt, ?_⟩
      rw [readMinecraftVarintLoop, if_pos ((and_80_eq_zero byte).mpr hlt)] at h
      simp only [Option.some.injEq, Prod.mk.injEq] at h
      simp [h.2]
    · rw [readMinecraftVarintLoop, if_neg (fun h => hlt ((and_80_eq_zero byte).mp h)),
        and_7f_toNat, or_shiftLeft hvalue] at h
      have hlt' : value + 2 ^ (7 * index) * (byte.toNat % 128) < 2 ^ (7 * (index + 1)) := by
        have hpow : 2 ^ (7 * (index + 1)) = 128 * 2 ^ (7 * index) := by
          rw [Nat.mul_add, Nat.pow_add, Nat.mul_comm]
        have : 2 ^ (7 * index) * (byte.toNat % 128) ≤ 2 ^ (7 * index) * 127 :=
          Nat.mul_le_mul_left _ (by omega)
        omega
      obtain ⟨encoding, rest, x, rfl, hencoding, hw⟩ := ih hlt' h
      refine ⟨byte :: encoding, rest, _, rfl, .more byte (by omega) hencoding, ?_⟩
      rw [hw, List.length_cons]
      omega

theorem readMinecraftVarint_of_isVarint {bytes : List UInt8} {v : ℕ} (h : IsVarint bytes v)
    (hlen : bytes.length ≤ minecraftVarintMaxBytes) (rest : List UInt8) :
    readMinecraftVarint (bytes ++ rest) = .complete v bytes.length := by
  have hloop := readMinecraftVarintLoop_of_isVarint h
    (rest.take (minecraftVarintMaxBytes - bytes.length)) 0 0 (by simp)
  rw [readMinecraftVarint, List.take_append, List.take_of_length_le hlen, hloop]
  simp

theorem isVarint_of_readMinecraftVarint {bytes : List UInt8} {v w : ℕ}
    (h : readMinecraftVarint bytes = .complete v w) :
    ∃ encoding rest, bytes = encoding ++ rest ∧ IsVarint encoding v ∧ encoding.length = w ∧
      encoding.length ≤ minecraftVarintMaxBytes := by
  unfold readMinecraftVarint at h
  split at h
  case h_2 => split at h <;> contradiction
  case h_1 v' w' hloop =>
    cases h
    obtain ⟨encoding, rest, x, hbytes, hencoding, hw⟩ :=
      isVarint_of_readMinecraftVarintLoop (by simp) hloop
    rw [Nat.zero_add] at hw
    have hread := readMinecraftVarintLoop_of_isVarint hencoding rest 0 0 (by simp)
    rw [← hbytes, hloop] at hread
    simp only [Nat.mul_zero, Nat.pow_zero, Nat.one_mul, Nat.zero_add, Option.some.injEq,
      Prod.mk.injEq] at hread
    refine ⟨encoding, rest ++ bytes.drop minecraftVarintMaxBytes, ?_, hread.1 ▸ hencoding, hw.symm, ?_⟩
    · rw [← List.append_assoc, ← hbytes, List.take_append_drop]
    · have := congrArg List.length hbytes
      simp only [List.length_take, List.length_append] at this
      omega

theorem readMinecraftVarint_of_all_more {bytes : List UInt8}
    (h : ∀ byte ∈ bytes, 128 ≤ byte.toNat) (hlen : bytes.length < minecraftVarintMaxBytes) :
    readMinecraftVarint bytes = .incomplete := by
  have hloop : ∀ (part : List UInt8) (value index : ℕ), (∀ byte ∈ part, 128 ≤ byte.toNat) →
      readMinecraftVarintLoop value index part = none := by
    intro part
    induction part with
    | nil => exact fun _ _ _ => rfl
    | cons byte part ih =>
      intro value index hpart
      have hbyte := hpart byte List.mem_cons_self
      rw [readMinecraftVarintLoop,
        if_neg (fun h => absurd ((and_80_eq_zero byte).mp h) (by omega))]
      exact ih _ _ fun b hb => hpart b (List.mem_cons_of_mem _ hb)
  rw [readMinecraftVarint, List.take_of_length_le (Nat.le_of_lt hlen), hloop bytes 0 0 h]
  exact if_pos hlen

/-- The filter only ever appends to what is pending. -/
theorem drainLoop_appends (sender : C2mSender) (stats : C2mFilterStats) :
    ∃ out rest, (sender.drainLoop stats).1 =
      { sender with pendingTcp := sender.pendingTcp ++ out, minecraftFrameBuffer := rest } := by
  induction sender, stats using C2mSender.drainLoop.induct with
  | case1 sender stats value width h hlimit =>
    rw [C2mSender.drainLoop, h]
    dsimp only
    rw [if_pos hlimit]
    exact ⟨_, _, rfl⟩
  | case2 sender stats value width h hlimit frameLen hshort =>
    rw [C2mSender.drainLoop, h]
    dsimp only
    rw [if_neg hlimit, if_pos hshort]
    exact ⟨[], sender.minecraftFrameBuffer, by simp⟩
  | case3 sender stats value width h hlimit frameLen hshort frame rest hforward ih =>
    obtain ⟨out, rest', ih⟩ := ih
    rw [C2mSender.drainLoop, h]
    dsimp only
    rw [if_neg hlimit, if_neg hshort, if_pos hforward]
    exact ⟨frame ++ out, rest', ih.trans (by simp)⟩
  | case4 sender stats value width h hlimit frameLen hshort frame rest hforward ih =>
    obtain ⟨out, rest', ih⟩ := ih
    rw [C2mSender.drainLoop, h]
    dsimp only
    rw [if_neg hlimit, if_neg hshort, if_neg hforward]
    exact ⟨out, rest', ih⟩
  | case5 sender stats h =>
    rw [C2mSender.drainLoop, h]
    exact ⟨[], sender.minecraftFrameBuffer, by simp⟩
  | case6 sender stats h =>
    rw [C2mSender.drainLoop, h]
    exact ⟨_, _, rfl⟩

/-- A frame of the client's stream: a length prefix in any encoding, and a body. -/
structure MinecraftFrame where
  lengthPrefix : List UInt8
  body : List UInt8
  isVarint : IsVarint lengthPrefix body.length
  length_lengthPrefix_le : lengthPrefix.length ≤ minecraftVarintMaxBytes
  length_body_le : body.length ≤ minecraftFrameLengthLimit

def MinecraftFrame.bytes (frame : MinecraftFrame) : List UInt8 := frame.lengthPrefix ++ frame.body

/-- An uncompressed packet of the compressed format (data length 0) that moves the player. -/
def MinecraftFrame.IsMovement (frame : MinecraftFrame) : Prop :=
  ∃ dataLength packetId rest id, frame.body = dataLength ++ packetId ++ rest ∧
    IsVarint dataLength 0 ∧ dataLength.length ≤ minecraftVarintMaxBytes ∧
    IsVarint packetId id ∧ packetId.length ≤ minecraftVarintMaxBytes ∧ 0x03 ≤ id ∧ id ≤ 0x06

theorem shouldForwardMinecraftFrame_eq_false (frame : MinecraftFrame) :
    shouldForwardMinecraftFrame frame.bytes = false ↔ frame.IsMovement := by
  have hpre := readMinecraftVarint_of_isVarint frame.isVarint frame.length_lengthPrefix_le
    frame.body
  simp only [shouldForwardMinecraftFrame, MinecraftFrame.bytes, hpre, List.length_append,
    ne_eq, not_true_eq_false, if_false, List.drop_left]
  constructor
  · intro h
    split at h
    case h_2 => contradiction
    case h_1 dataLen width hdata =>
      split_ifs at h with hzero
      split at h
      case h_2 => contradiction
      case h_1 id idWidth hid =>
        obtain ⟨dataLength, rest, hbody, hdataLength, rfl, hdataWidth⟩ :=
          isVarint_of_readMinecraftVarint hdata
        rw [hbody, List.drop_left] at hid
        obtain ⟨packetId, rest', hrest, hpacketId, rfl, hidWidth⟩ :=
          isVarint_of_readMinecraftVarint hid
        refine ⟨dataLength, packetId, rest', id, ?_, ?_, hdataWidth, hpacketId, hidWidth, ?_⟩
        · rw [hbody, hrest, List.append_assoc]
        · exact hzero ▸ hdataLength
        · simpa using h
  · rintro ⟨dataLength, packetId, rest, id, hbody, hdata, hdataWidth, hid, hidWidth, hrange⟩
    have hreadData := readMinecraftVarint_of_isVarint hdata hdataWidth (packetId ++ rest)
    have hreadId := readMinecraftVarint_of_isVarint hid hidWidth rest
    rw [← List.append_assoc, ← hbody] at hreadData
    simp only [hreadData, not_true_eq_false, if_false]
    rw [hbody, List.append_assoc, List.drop_left, hreadId]
    simpa using hrange

instance (frame : MinecraftFrame) : Decidable frame.IsMovement :=
  decidable_of_iff _ (shouldForwardMinecraftFrame_eq_false frame)

/-- The frames the filter forwards. -/
def forwarded (frames : List MinecraftFrame) : List UInt8 :=
  ((frames.filter fun frame => ¬ frame.IsMovement).map MinecraftFrame.bytes).flatten

def streamOf (frames : List MinecraftFrame) : List UInt8 :=
  (frames.map MinecraftFrame.bytes).flatten

theorem streamOf_append (frames frames' : List MinecraftFrame) :
    streamOf (frames ++ frames') = streamOf frames ++ streamOf frames' := by
  simp [streamOf]

theorem forwarded_cons (frame : MinecraftFrame) (frames : List MinecraftFrame) :
    forwarded (frame :: frames) =
      (if frame.IsMovement then [] else frame.bytes) ++ forwarded frames := by
  by_cases h : frame.IsMovement <;> simp [forwarded, h]

theorem forwarded_append (frames frames' : List MinecraftFrame) :
    forwarded (frames ++ frames') = forwarded frames ++ forwarded frames' := by
  simp [forwarded]

/-- No whole frame is left: nothing, or a proper part of the next frame. -/
def IsRest (rest : List UInt8) : Prop :=
  rest = [] ∨ ∃ frame : MinecraftFrame, rest <+: frame.bytes ∧ rest ≠ frame.bytes

/-- On what is left of a stream the filter waits. -/
theorem drainLoop_rest {sender : C2mSender} (h : IsRest sender.minecraftFrameBuffer)
    (stats : C2mFilterStats) : sender.drainLoop stats = (sender, stats) := by
  have hwait : ∀ part : List UInt8, (∀ byte ∈ part, 128 ≤ byte.toNat) →
      part.length < minecraftVarintMaxBytes → sender.minecraftFrameBuffer = part →
      sender.drainLoop stats = (sender, stats) := by
    intro part hpart hlen heq
    have hread := readMinecraftVarint_of_all_more hpart hlen
    rw [C2mSender.drainLoop]
    split
    case h_1 heq' => rw [heq, hread] at heq'; contradiction
    case h_2 => rfl
    case h_3 heq' => rw [heq, hread] at heq'; contradiction
  rcases h with hnil | ⟨frame, hpre, hne⟩
  · exact hwait [] (fun _ h => absurd h List.not_mem_nil) (by decide) hnil
  have hwidth := frame.length_lengthPrefix_le
  by_cases hshort : sender.minecraftFrameBuffer.length < frame.lengthPrefix.length
  · have hpart : sender.minecraftFrameBuffer <+: frame.lengthPrefix :=
      List.prefix_of_prefix_length_le hpre (List.prefix_append _ _) (Nat.le_of_lt hshort)
    refine hwait _ (frame.isVarint.all_more hpart ?_) (Nat.lt_of_lt_of_le hshort hwidth) rfl
    intro heq
    rw [heq] at hshort
    omega
  · obtain ⟨rest, hrest⟩ : frame.lengthPrefix <+: sender.minecraftFrameBuffer :=
      List.prefix_of_prefix_length_le (List.prefix_append _ _) hpre (Nat.le_of_not_lt hshort)
    have hread := readMinecraftVarint_of_isVarint frame.isVarint hwidth rest
    rw [hrest] at hread
    have hlen : sender.minecraftFrameBuffer.length <
        frame.lengthPrefix.length + frame.body.length := by
      have hle := hpre.length_le
      rw [MinecraftFrame.bytes, List.length_append] at hle
      refine Nat.lt_of_le_of_ne hle fun heq => hne (hpre.eq_of_length ?_)
      rw [heq, MinecraftFrame.bytes, List.length_append]
    rw [C2mSender.drainLoop]
    split
    case h_1 value width heq =>
      rw [hread] at heq
      cases heq
      rw [if_neg (Nat.not_lt.mpr frame.length_body_le)]
      exact if_pos hlen
    case h_2 => rfl
    case h_3 heq => rw [hread] at heq; contradiction

theorem drainLoop_frame {sender : C2mSender} {frame : MinecraftFrame} {rest : List UInt8}
    (hbuffer : sender.minecraftFrameBuffer = frame.bytes ++ rest) (stats : C2mFilterStats) :
    ∃ stats', sender.drainLoop stats =
      C2mSender.drainLoop { sender with
        pendingTcp := sender.pendingTcp ++ (if frame.IsMovement then [] else frame.bytes)
        minecraftFrameBuffer := rest } stats' := by
  have hread := readMinecraftVarint_of_isVarint frame.isVarint frame.length_lengthPrefix_le
    (frame.body ++ rest)
  rw [← List.append_assoc, ← MinecraftFrame.bytes, ← hbuffer] at hread
  have hlen : frame.lengthPrefix.length + frame.body.length = frame.bytes.length := by
    rw [MinecraftFrame.bytes, List.length_append]
  have htake : sender.minecraftFrameBuffer.take frame.bytes.length = frame.bytes := by
    rw [hbuffer, List.take_left]
  have hdrop : sender.minecraftFrameBuffer.drop frame.bytes.length = rest := by
    rw [hbuffer, List.drop_left]
  have hroom : ¬ sender.minecraftFrameBuffer.length < frame.bytes.length := by
    rw [hbuffer, List.length_append]
    omega
  rw [C2mSender.drainLoop]
  split
  case h_2 heq => rw [hread] at heq; contradiction
  case h_3 heq => rw [hread] at heq; contradiction
  case h_1 value width heq =>
    rw [hread] at heq
    cases heq
    rw [if_neg (Nat.not_lt.mpr frame.length_body_le)]
    simp only [hlen, if_neg hroom, htake, hdrop]
    by_cases hmove : frame.IsMovement
    · have hforward := (shouldForwardMinecraftFrame_eq_false frame).mpr hmove
      exact ⟨_, by rw [hforward, if_pos hmove, List.append_nil]; rfl⟩
    · have hforward : shouldForwardMinecraftFrame frame.bytes = true := by
        rw [← Bool.not_eq_false, shouldForwardMinecraftFrame_eq_false]
        exact hmove
      exact ⟨_, by rw [hforward, if_neg hmove]; rfl⟩

theorem drainLoop_frames (sender : C2mSender) {frames : List MinecraftFrame} {rest : List UInt8}
    (hrest : IsRest rest) (hbuffer : sender.minecraftFrameBuffer = streamOf frames ++ rest)
    (stats : C2mFilterStats) :
    ∃ stats', sender.drainLoop stats =
      ({ sender with
        pendingTcp := sender.pendingTcp ++ forwarded frames
        minecraftFrameBuffer := rest }, stats') := by
  induction frames generalizing sender stats with
  | nil =>
    have hbuffer : sender.minecraftFrameBuffer = rest := by simpa [streamOf] using hbuffer
    refine ⟨stats, ?_⟩
    rw [drainLoop_rest (hbuffer ▸ hrest)]
    simp [forwarded, ← hbuffer]
  | cons frame frames ih =>
    have hcons : sender.minecraftFrameBuffer = frame.bytes ++ (streamOf frames ++ rest) := by
      simpa [streamOf] using hbuffer
    obtain ⟨stats', hframe⟩ := drainLoop_frame hcons stats
    rw [hframe]
    obtain ⟨stats'', hframes⟩ := ih { sender with
      pendingTcp := sender.pendingTcp ++ (if frame.IsMovement then [] else frame.bytes)
      minecraftFrameBuffer := streamOf frames ++ rest } rfl stats'
    exact ⟨stats'', by rw [hframes, forwarded_cons, List.append_assoc]⟩

theorem exists_split {frames : List MinecraftFrame} {part : List UInt8}
    (h : part <+: streamOf frames) :
    ∃ done later rest, frames = done ++ later ∧ part = streamOf done ++ rest ∧ IsRest rest := by
  obtain ⟨doneBytes, laterBytes, rest, hsplit, hpart, hrest⟩ := exists_split_flatten h
  obtain ⟨done, later, rfl, rfl, rfl⟩ := List.map_eq_append_iff.mp hsplit
  refine ⟨done, later, rest, rfl, hpart, ?_⟩
  rcases hrest with ⟨hnil, -⟩ | ⟨segment, segments, hsegments, hpre, hne⟩
  · exact .inl hnil
  · obtain ⟨frame, -, -, rfl, -⟩ := List.map_eq_cons_iff.mp hsegments
    exact .inr ⟨frame, hpre, hne⟩

def pushAll (sender : C2mSender) (chunks : List (List UInt8)) : C2mSender :=
  chunks.foldl (fun sender chunk => (sender.pushFilteredTcpBytes chunk).1) sender

theorem IsRest.ne_frame_append {rest : List UInt8} (h : IsRest rest) (frame : MinecraftFrame)
    (more : List UInt8) : rest ≠ frame.bytes ++ more := by
  rintro rfl
  rcases h with hnil | ⟨frame', ⟨tail, htail⟩, hne⟩
  · have := frame.isVarint.length_pos
    simp only [MinecraftFrame.bytes, List.append_assoc, List.append_eq_nil_iff] at hnil
    rw [hnil.1] at this
    exact absurd this (Nat.lt_irrefl 0)
  · simp only [MinecraftFrame.bytes, List.append_assoc] at htail hne
    obtain ⟨hpre, hlen, hbody⟩ := frame.isVarint.unique frame'.isVarint htail
    have := congrArg List.length hbody
    simp only [List.length_append] at this
    have hmore : more = [] := List.eq_nil_of_length_eq_zero (by omega)
    have htail' : tail = [] := List.eq_nil_of_length_eq_zero (by omega)
    rw [hmore, htail', List.append_nil, List.append_nil] at hbody
    exact hne (by rw [hmore, List.append_nil, hpre, hbody])

/-- However the stream is cut, the forwarded frames are what is appended. -/
theorem pendingTcp_pushAll {sender : C2mSender} {frames : List MinecraftFrame}
    {chunks : List (List UInt8)} (hrest : IsRest sender.minecraftFrameBuffer)
    (hstream : sender.minecraftFrameBuffer ++ chunks.flatten = streamOf frames) :
    (pushAll sender chunks).pendingTcp = sender.pendingTcp ++ forwarded frames := by
  induction chunks generalizing sender frames with
  | nil =>
    cases frames with
    | nil => simp [pushAll, forwarded]
    | cons frame frames =>
      rw [List.flatten_nil, List.append_nil] at hstream
      exact absurd (by simpa [streamOf] using hstream)
        (hrest.ne_frame_append frame (streamOf frames))
  | cons chunk chunks ih =>
    rw [List.flatten_cons, ← List.append_assoc] at hstream
    obtain ⟨done, later, rest, rfl, hpart, hrest'⟩ := exists_split ⟨_, hstream⟩
    obtain ⟨stats, hdrain⟩ := drainLoop_frames { sender with
      minecraftFrameBuffer := sender.minecraftFrameBuffer ++ chunk } hrest' hpart
      { forwardedBytes := 0, droppedMovementFrames := 0, bufferedBytes := 0 }
    have hpush : (sender.pushFilteredTcpBytes chunk).1 =
        { sender with
          pendingTcp := sender.pendingTcp ++ forwarded done, minecraftFrameBuffer := rest } := by
      rw [C2mSender.pushFilteredTcpBytes, C2mSender.drainFilteredMinecraftFrames, hdrain]
    have hlater : rest ++ chunks.flatten = streamOf later := by
      rw [hpart, streamOf_append, List.append_assoc] at hstream
      exact List.append_cancel_left hstream
    rw [pushAll, List.foldl_cons, hpush]
    change (pushAll { sender with
      pendingTcp := sender.pendingTcp ++ forwarded done
      minecraftFrameBuffer := rest } chunks).pendingTcp = _
    rw [ih hrest' hlater, forwarded_append, List.append_assoc]

/-- The Handshake of a client that wants to log in: protocol version 47, next state 2. -/
structure IsHandshake (frame : MinecraftFrame) (host port : List UInt8) : Prop where
  host_length_le : host.length ≤ 255
  port_length : port.length = 2
  body : ∃ packetId version hostLength nextState, IsVarint packetId 0 ∧ packetId.length ≤ 5 ∧
    IsVarint version 47 ∧ version.length ≤ 5 ∧ IsVarint hostLength host.length ∧
    IsVarint nextState 2 ∧
    frame.body = packetId ++ version ++ hostLength ++ host ++ port ++ nextState

/-- The Login Start frame with a username. -/
structure IsLoginStart (frame : MinecraftFrame) (username : List UInt8) : Prop where
  username_length : 1 ≤ username.length ∧ username.length ≤ 16
  body : ∃ packetId nameLength, IsVarint packetId 0 ∧ packetId.length ≤ 5 ∧
    IsVarint nameLength username.length ∧ nameLength.length ≤ 5 ∧
    frame.body = packetId ++ nameLength ++ username

theorem isMovement_iff_of_body {frame : MinecraftFrame} {packetId field rest : List UInt8} {v : ℕ}
    (hpacketId : IsVarint packetId 0) (hpacketIdLen : packetId.length ≤ 5)
    (hfield : IsVarint field v) (hfieldLen : field.length ≤ 5)
    (hbody : frame.body = packetId ++ field ++ rest) :
    frame.IsMovement ↔ 0x03 ≤ v ∧ v ≤ 0x06 := by
  constructor
  · rintro ⟨dataLength, packetId', rest', id, hbody', hdata, _, hid, _, hrange⟩
    rw [hbody', List.append_assoc, List.append_assoc] at hbody
    obtain ⟨_, _, hbody⟩ := hdata.unique hpacketId hbody
    obtain ⟨_, rfl, _⟩ := hid.unique hfield hbody
    exact hrange
  · intro hrange
    exact ⟨packetId, field, rest, v, hbody, hpacketId, hpacketIdLen, hfield, hfieldLen, hrange⟩

theorem IsHandshake.not_isMovement {frame : MinecraftFrame} {host port : List UInt8}
    (h : IsHandshake frame host port) : ¬ frame.IsMovement := by
  obtain ⟨packetId, version, hostLength, nextState, hid, hidLen, hversion, hversionLen, _, _,
    hbody⟩ := h.body
  have hsplit : frame.body = packetId ++ version ++ (hostLength ++ host ++ port ++ nextState) := by
    simp [hbody]
  rw [isMovement_iff_of_body hid hidLen hversion hversionLen hsplit]
  decide

theorem IsLoginStart.isMovement_iff {frame : MinecraftFrame} {username : List UInt8}
    (h : IsLoginStart frame username) :
    frame.IsMovement ↔ 3 ≤ username.length ∧ username.length ≤ 6 := by
  obtain ⟨packetId, nameLength, hid, hidLen, hname, hnameLen, hbody⟩ := h.body
  exact isMovement_iff_of_body hid hidLen hname hnameLen hbody

/-- A connection's Handshake, Login Start and Play frames other than movement are what
reaches `pending_tcp`, however the stream is cut, exactly when the length of the username
is none of 3, 4, 5, 6: the filter reads that length as a packet id. -/
theorem pushFiltered_connection_iff {sender : C2mSender} (hempty : sender.minecraftFrameBuffer = [])
    {handshake login : MinecraftFrame} {host port username : List UInt8}
    (hhandshake : IsHandshake handshake host port) (hlogin : IsLoginStart login username)
    (play : List MinecraftFrame) {chunks : List (List UInt8)}
    (hchunks : chunks.flatten = handshake.bytes ++ login.bytes ++ streamOf play) :
    (pushAll sender chunks).pendingTcp = sender.pendingTcp ++
        (handshake.bytes ++ login.bytes ++
          ((play.filter fun frame => ¬ frame.IsMovement).map MinecraftFrame.bytes).flatten) ↔
      ¬ (3 ≤ username.length ∧ username.length ≤ 6) := by
  have hstream : sender.minecraftFrameBuffer ++ chunks.flatten =
      streamOf (handshake :: login :: play) := by
    rw [hempty, hchunks]
    simp [streamOf]
  have hpush := pendingTcp_pushAll (hempty ▸ .inl rfl) hstream
  rw [hpush, List.append_cancel_left_eq, ← hlogin.isMovement_iff, forwarded_cons, forwarded_cons,
    if_neg hhandshake.not_isMovement]
  by_cases hmove : login.IsMovement
  · rw [if_pos hmove, List.nil_append]
    refine iff_of_false (fun heq => ?_) (not_not.mpr hmove)
    have hpos := login.isVarint.length_pos
    have := congrArg List.length heq
    simp only [List.length_append, forwarded, MinecraftFrame.bytes] at this
    omega
  · rw [if_neg hmove]
    exact iff_of_true (by simp [forwarded]) hmove

def localhostHandshake : MinecraftFrame :=
  { lengthPrefix := [0x0f]
    body := [0x00, 0x2f, 0x09, 0x6c, 0x6f, 0x63, 0x61, 0x6c, 0x68, 0x6f, 0x73, 0x74, 0x63, 0xdd, 0x02]
    isVarint := .last 0x0f (by decide)
    length_lengthPrefix_le := by decide
    length_body_le := by decide }

theorem isHandshake_localhostHandshake :
    IsHandshake localhostHandshake [0x6c, 0x6f, 0x63, 0x61, 0x6c, 0x68, 0x6f, 0x73, 0x74]
      [0x63, 0xdd] :=
  ⟨by decide, rfl, [0x00], [0x2f], [0x09], [0x02], .last 0x00 (by decide), by decide,
    .last 0x2f (by decide), by decide, .last 0x09 (by decide), .last 0x02 (by decide), rfl⟩

theorem isVarint_loginStartSteve_length : IsVarint [0x07] 7 := .last 0x07 (by decide)

def loginStartSteve : MinecraftFrame :=
  { lengthPrefix := [0x07], body := [0x00, 0x05, 0x53, 0x74, 0x65, 0x76, 0x65]
    isVarint := isVarint_loginStartSteve_length
    length_lengthPrefix_le := by decide
    length_body_le := by decide }

theorem isLoginStart_loginStartSteve :
    IsLoginStart loginStartSteve [0x53, 0x74, 0x65, 0x76, 0x65] :=
  ⟨by decide, [0x00], [0x05], .last 0x00 (by decide), by decide, .last 0x05 (by decide),
    by decide, rfl⟩

def loginStartHerobrine : MinecraftFrame :=
  { lengthPrefix := [0x0b]
    body := [0x00, 0x09, 0x48, 0x65, 0x72, 0x6f, 0x62, 0x72, 0x69, 0x6e, 0x65]
    isVarint := .last 0x0b (by decide)
    length_lengthPrefix_le := by decide
    length_body_le := by decide }

theorem isLoginStart_loginStartHerobrine :
    IsLoginStart loginStartHerobrine [0x48, 0x65, 0x72, 0x6f, 0x62, 0x72, 0x69, 0x6e, 0x65] :=
  ⟨by decide, [0x00], [0x09], .last 0x00 (by decide), by decide, .last 0x09 (by decide),
    by decide, rfl⟩

/-- A name of nine bytes reaches `pending_tcp`, sent in two pieces. -/
theorem pushFiltered_connection_herobrine :
    (pushAll (.new 497 512)
        [localhostHandshake.bytes, loginStartHerobrine.bytes]).pendingTcp =
      localhostHandshake.bytes ++ loginStartHerobrine.bytes :=
  (pushFiltered_connection_iff
    (show (C2mSender.new 497 512).minecraftFrameBuffer = [] from rfl) isHandshake_localhostHandshake
    isLoginStart_loginStartHerobrine [] (by simp [streamOf])).mpr (by decide)

/-- `Steve` cannot log in: the Login Start is dropped as a movement packet. -/
theorem pushFiltered_drops_steve :
    IsHandshake localhostHandshake [0x6c, 0x6f, 0x63, 0x61, 0x6c, 0x68, 0x6f, 0x73, 0x74]
      [0x63, 0xdd] ∧
    IsLoginStart loginStartSteve [0x53, 0x74, 0x65, 0x76, 0x65] ∧
    (pushAll (.new 497 512) [localhostHandshake.bytes ++ loginStartSteve.bytes]).pendingTcp =
      localhostHandshake.bytes :=
  ⟨isHandshake_localhostHandshake, isLoginStart_loginStartSteve, by decide +kernel⟩

end StarrySky.Bridge
