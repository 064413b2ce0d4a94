import StarrySky.Core.ClientStream
import StarrySky.Core.StreamCut

/-! A stream in several calls of `mc_server_receive`. -/

namespace StarrySky.Core
open StarrySky.Base

variable {cfg : McConfig} {server : McServer} {tx : TxRing} {frame : InboundFrame}

def receiveCalls (cfg : McConfig) (server : McServer) (tx : TxRing) :
    List (List UInt8) → Bool × McServer × TxRing
  | [] => (true, server, tx)
  | piece :: pieces =>
    let received := mcServerReceive cfg server piece tx
    if !received.1 then received else receiveCalls cfg received.2.1 received.2.2 pieces

def IsServerboundId (packetId : Int32) : Prop :=
  ¬ (packetId < 0 ∨ packetId > mcMaxServerboundPacketId)

instance (packetId : Int32) : Decidable (IsServerboundId packetId) :=
  inferInstanceAs (Decidable (¬ _))

theorem packetIdInvalid_part {packet part : List UInt8} (hpre : part <+: packet)
    (h : packetIdInvalid part = true) {packetId : Int32} {used : ℕ}
    (hdecode : mcVarintDecode packet = some (packetId, used)) :
    used ≤ part.length ∧ ¬ IsServerboundId packetId := by
  obtain ⟨more, rfl⟩ := hpre
  rw [packetIdInvalid] at h
  cases hpart : mcVarintDecode part with
  | none =>
    rw [hpart] at h
    rw [mcVarintDecode_none_append hpart (by simpa using h) more] at hdecode
    cases hdecode
  | some decoded =>
    obtain ⟨packetId', used'⟩ := decoded
    obtain ⟨hwhole, hused⟩ := mcVarintDecode_append hpart more
    rw [hdecode] at hwhole
    cases hwhole
    rw [hpart] at h
    exact ⟨hused, not_not_intro (by simpa using h)⟩

theorem packetIdInvalid_dropLast {packet : List UInt8} {packetId : Int32} {used : ℕ}
    (hdecode : mcVarintDecode packet = some (packetId, used)) (hused : used < packet.length)
    (hforeign : ¬ IsServerboundId packetId) : packetIdInvalid packet.dropLast = true := by
  have hne : packet ≠ [] := List.ne_nil_of_length_pos (Nat.zero_lt_of_lt hused)
  rw [← List.dropLast_append_getLast hne] at hdecode
  have hpart : used ≤ packet.dropLast.length := by
    rw [List.length_dropLast]
    exact Nat.le_sub_one_of_lt hused
  rw [packetIdInvalid, mcVarintDecode_of_append hdecode hpart]
  simpa using not_not.mp hforeign

theorem unwrapPacket_cases (server : McServer) (packet : McPacket) :
    server.compressionEnabled = false ∧ unwrapPacket server packet = some packet.body ∨
      server.compressionEnabled = true ∧
        (unwrapPacket server packet = none ∧
            (∀ used, mcVarintDecode packet.body ≠ some (0, used)) ∨
          ∃ used, mcVarintDecode packet.body = some (0, used) ∧
            unwrapPacket server packet = some (packet.body.drop used)) := by
  rw [unwrapPacket]
  cases server.compressionEnabled with
  | false => exact .inl ⟨rfl, rfl⟩
  | true =>
    refine .inr ⟨rfl, ?_⟩
    rw [if_pos rfl, mcPacketGetCompressedBody]
    cases hdecode : mcVarintDecode packet.body with
    | none => exact .inl ⟨rfl, fun _ => nofun⟩
    | some decoded =>
      obtain ⟨dataLen, used⟩ := decoded
      have hused : used ≤ packet.body.length := by
        have happend := mcVarintDecode_append hdecode []
        exact happend.2
      dsimp only
      rw [if_neg (Nat.not_lt.mpr hused)]
      by_cases hzero : dataLen = 0
      · rw [hzero]
        exact .inr ⟨used, rfl, rfl⟩
      · refine .inl ⟨?_, fun _ heq => hzero (congrArg Prod.fst (Option.some.inj heq))⟩
        split_ifs
        · rfl
        · dsimp only
          rw [if_pos hzero]

/-- The packet id that `handle_packet` reads, and the bytes of the packet that hold it. -/
def InboundFrame.HasPacketId (server : McServer) (frame : InboundFrame) (packet : List UInt8)
    (packetId : Int32) (used : ℕ) : Prop :=
  unwrapPacket server frame.packet = some packet ∧ mcVarintDecode packet = some (packetId, used)

/-- A frame with an id that no handler knows, and bytes behind the id. -/
def InboundFrame.HasForeignPacketId (server : McServer) (frame : InboundFrame) : Prop :=
  ∃ packet packetId used, frame.HasPacketId server packet packetId used ∧
    ¬ IsServerboundId packetId ∧ used < packet.length

theorem readVarintBody_zero (body : List UInt8) :
    readVarintBody body 0 = mcVarintDecode body := by
  cases body with
  | nil => rfl
  | cons byte body =>
    have hlen : ¬ 0 ≥ (byte :: body).length := Nat.not_le.mpr (Nat.succ_pos _)
    rw [readVarintBody, if_neg hlen, List.drop_zero]
    cases mcVarintDecode (byte :: body) with
    | none => rfl
    | some decoded =>
      rw [Option.map_some]
      dsimp only
      rw [Nat.zero_add]

theorem handleFrame_noPacketId
    (h : ∀ packet packetId used, ¬ frame.HasPacketId server packet packetId used) :
    handleFrame cfg server frame tx = (false, server, tx) := by
  rw [handleFrame]
  cases hunwrap : unwrapPacket server frame.packet with
  | none => rfl
  | some packet =>
    cases hdecode : mcVarintDecode packet with
    | none =>
      dsimp only
      rw [handlePacket, readVarintBody_zero, hdecode]
    | some decoded => exact absurd ⟨hunwrap, hdecode⟩ (h packet decoded.1 decoded.2)

theorem handleFrame_foreign {packet : List UInt8} {packetId : Int32} {used : ℕ}
    (hid : frame.HasPacketId server packet packetId used)
    (hforeign : ¬ IsServerboundId packetId) :
    handleFrame cfg server frame tx = (true, server, tx) := by
  have hne : ∀ known : Int32, IsServerboundId known → packetId ≠ known := by
    rintro known hknown rfl
    exact hforeign hknown
  have hzero := hne 0 (by decide)
  have hone := hne 1 (by decide)
  have hthree := hne 3 (by decide)
  have hfour := hne 4 (by decide)
  have hfive := hne 5 (by decide)
  have hsix := hne 6 (by decide)
  rw [handleFrame, hid.1]
  dsimp only
  rw [handlePacket, readVarintBody_zero, hid.2]
  dsimp only
  rw [if_neg fun h => hzero h.2, if_neg fun h => hzero h.2, handlePacketByState,
    if_neg fun h => hzero h.2, if_neg fun h => hone h.2.1, if_neg fun h => hzero h.2,
    if_neg fun h => hzero h.2, if_neg fun h => hone h.2, if_neg]
  rintro ⟨-, h | h | h | h⟩
  · exact hthree h
  · exact hfour h
  · exact hfive h
  · exact hsix h

theorem partialBodyInvalid_cases {part : List UInt8} (hpre : part <+: frame.body)
    (hne : part ≠ frame.body) (h : partialBodyInvalid cfg server part = true) :
    (∀ packet packetId used, ¬ frame.HasPacketId server packet packetId used) ∨
      frame.HasForeignPacketId server := by
  rw [or_iff_not_imp_left]
  intro hsome
  push Not at hsome
  obtain ⟨packet, packetId, used, hunwrap, hdecode⟩ := hsome
  have hshort : part.length < frame.body.length :=
    lt_of_le_of_ne hpre.length_le fun heq => hne (hpre.eq_of_length heq)
  refine ⟨packet, packetId, used, ⟨hunwrap, hdecode⟩, ?_⟩
  have hbody : frame.packet.body = frame.body := rfl
  rw [partialBodyInvalid] at h
  rcases unwrapPacket_cases server frame.packet with ⟨hplain, hpacket⟩ | ⟨henabled, hcases⟩
  · obtain rfl : packet = frame.body := Option.some.inj (hunwrap.symm.trans hpacket)
    split_ifs at h with hnil hcompressed
    · exact absurd (hplain.symm.trans hcompressed.2) Bool.false_ne_true
    · obtain ⟨hused, hforeign⟩ := packetIdInvalid_part hpre h hdecode
      exact ⟨hforeign, lt_of_le_of_lt hused hshort⟩
  · rcases hcases with ⟨hnone, -⟩ | ⟨dataUsed, hdataLen, hpacket⟩
    · exact absurd (hunwrap.symm.trans hnone) (by simp)
    rw [hbody] at hdataLen hpacket
    obtain rfl : packet = frame.body.drop dataUsed :=
      Option.some.inj (hunwrap.symm.trans hpacket)
    split_ifs at h with hnil hcompressed
    · obtain ⟨more, hmore⟩ := hpre
      rw [← hmore] at hdataLen
      cases hpart : mcVarintDecode part with
      | none =>
        rw [hpart] at h
        rw [mcVarintDecode_none_append hpart (by simpa using h) more] at hdataLen
        cases hdataLen
      | some decoded =>
        obtain ⟨dataLen, used'⟩ := decoded
        obtain ⟨hwhole, hdataUsed⟩ := mcVarintDecode_append hpart more
        rw [hdataLen] at hwhole
        cases hwhole
        rw [hpart] at h
        dsimp only at h
        rw [if_neg (not_not_intro rfl)] at h
        split_ifs at h
        have hdrop : part.drop dataUsed <+: frame.body.drop dataUsed := by
          rw [← hmore, List.drop_append_of_le_length hdataUsed]
          exact List.prefix_append _ _
        obtain ⟨hused, hforeign⟩ := packetIdInvalid_part hdrop h hdecode
        refine ⟨hforeign, lt_of_le_of_lt hused ?_⟩
        rw [List.length_drop, List.length_drop]
        exact Nat.sub_lt_sub_right hdataUsed hshort
    -- without compression in the build the check takes the data length 0 for an id
    · exact absurd (by decide) (packetIdInvalid_part hpre h hdataLen).2

/-! A stream of accepted frames. -/

theorem isServerboundId_of_le {packetId : Int32} (h : packetId.toUInt32 ≤ 0x7f) :
    IsServerboundId packetId := by
  have hnat : packetId.toBitVec.toNat ≤ 127 := h
  have hint : packetId.toInt = packetId.toBitVec.toNat := by
    rw [← Int32.toInt_toBitVec, BitVec.toInt_eq_toNat_cond, if_pos (by omega)]
  rintro (hneg | hover)
  · rw [Int32.lt_iff_toInt_lt, hint, Int32.toInt_zero] at hneg
    omega
  · rw [gt_iff_lt, Int32.lt_iff_toInt_lt, hint] at hover
    have hmax : mcMaxServerboundPacketId.toInt = 127 := by decide
    omega

/-- The id as the number that the packet encodes: a negative one is 2 ^ 31 or more. -/
def InboundFrame.PacketIdAtMost (server : McServer) (frame : InboundFrame) (bound : UInt32) :
    Prop :=
  ∃ packet packetId used, frame.HasPacketId server packet packetId used ∧
    packetId.toUInt32 ≤ bound

theorem InboundFrame.PacketIdAtMost.not_foreign (hid : frame.PacketIdAtMost server 0x7f) :
    ¬ frame.HasForeignPacketId server := by
  rintro ⟨packet, packetId, used, ⟨hunwrap, hdecode⟩, hforeign, -⟩
  obtain ⟨packet', packetId', used', ⟨hunwrap', hdecode'⟩, hbound⟩ := hid
  obtain rfl : packet = packet' := Option.some.inj (hunwrap.symm.trans hunwrap')
  rw [hdecode] at hdecode'
  cases hdecode'
  exact hforeign (isServerboundId_of_le hbound)

theorem partialFrame_of_packetIdAtMost (hbody : frame.body.length ≤ mcMaxPacketBody)
    {part : List UInt8} (hpre : part <+: frame.bytes) (hne : part ≠ frame.bytes)
    (hid : frame.PacketIdAtMost server 0x7f) :
    partialFrameHasInvalidPacketId cfg server part = false := by
  rcases InboundFrame.part_cases hpre hne with ⟨hmore, -⟩ | ⟨bodyPart, rfl, hbodyPart, hbodyNe⟩
  · exact partialFrameHasInvalidPacketId_of_all_more cfg server hmore
  · rw [partialFrameHasInvalidPacketId_body cfg server hbody, ← Bool.not_eq_true]
    intro hinvalid
    rcases partialBodyInvalid_cases hbodyPart hbodyNe hinvalid with hnone | hforeign
    · obtain ⟨packet, packetId, used, hpacketId, -⟩ := hid
      exact hnone packet packetId used hpacketId
    · exact hid.not_foreign hforeign

def AcceptedAlone (cfg : McConfig) : McServer → TxRing → List InboundFrame → Prop
  | _, _, [] => True
  | server, tx, frame :: frames =>
    let received := mcServerReceive cfg server frame.bytes tx
    frame.bytes.length ≤ mcRxAccumSize - 512 ∧ frame.PacketIdAtMost server 0x7f ∧
      received.1 = true ∧ AcceptedAlone cfg received.2.1 received.2.2 frames

theorem InboundFrame.length_body_le (h : frame.bytes.length ≤ mcRxAccumSize - 512) :
    frame.body.length ≤ mcMaxPacketBody := by
  rw [frame.length_bytes] at h
  exact (Nat.le_of_add_left_le h).trans (by decide)

def inboundStream (frames : List InboundFrame) : List UInt8 :=
  (frames.map InboundFrame.bytes).flatten

theorem inboundStream_append (done later : List InboundFrame) :
    inboundStream (done ++ later) =
      (done.map InboundFrame.bytes).flatten ++ inboundStream later := by
  rw [inboundStream, List.map_append, List.flatten_append, inboundStream]

theorem startsWith_nil_frames (frames : List InboundFrame) :
    StartsWith [] (frames.map InboundFrame.bytes) := by
  apply startsWith_nil
  intro hmem
  obtain ⟨frame, -, hnil⟩ := List.mem_map.mp hmem
  exact frame.bytes_ne_nil hnil

theorem receiveLoop_accepted (hbody : frame.body.length ≤ mcMaxPacketBody)
    (haccepted : (handleFrame cfg server frame tx).1 = true) (frames : List InboundFrame)
    (rxAccum rest : List UInt8) :
    receiveLoop cfg { server with rxAccum := rxAccum } (inboundStream (frame :: frames) ++ rest) tx =
      receiveLoop cfg { (handleFrame cfg server frame tx).2.1 with rxAccum := rxAccum }
        (inboundStream frames ++ rest) (handleFrame cfg server frame tx).2.2 := by
  have hstream : inboundStream (frame :: frames) ++ rest =
      frame.bytes ++ (inboundStream frames ++ rest) := by
    rw [inboundStream, List.map_cons, List.flatten_cons, List.append_assoc]
    rfl
  rw [hstream, receiveLoop_frame cfg _ hbody, handleFrame_withAccum, withAccum, haccepted,
    if_pos rfl]

/-- What is done with whole frames does not depend on what follows them. -/
theorem receiveLoop_frames (done later : List InboundFrame) (hempty : server.rxAccum = [])
    (h : AcceptedAlone cfg server tx (done ++ later)) :
    ∃ server' tx', server'.rxAccum = [] ∧ AcceptedAlone cfg server' tx' later ∧
      (∀ frames, receiveCalls cfg server tx ((done ++ frames).map InboundFrame.bytes) =
        receiveCalls cfg server' tx' (frames.map InboundFrame.bytes)) ∧
      ∀ rxAccum rest, receiveLoop cfg { server with rxAccum := rxAccum }
        (inboundStream done ++ rest) tx =
          receiveLoop cfg { server' with rxAccum := rxAccum } rest tx' := by
  induction done generalizing server tx with
  | nil => exact ⟨server, tx, hempty, h, fun _ => rfl, fun _ _ => rfl⟩
  | cons frame done ih =>
    obtain ⟨hlen, -, haccepted, hlater⟩ := h
    have hbody := InboundFrame.length_body_le hlen
    have hreceive := mcServerReceive_frame cfg hempty hbody tx
    rw [hreceive] at haccepted hlater
    have hempty' := (rxAccum_handleFrame cfg server frame tx).trans hempty
    obtain ⟨server', tx', hserver', haccept', hcalls, hloop⟩ := ih hempty' hlater
    refine ⟨server', tx', hserver', haccept', ?_, ?_⟩
    · intro frames
      rw [List.cons_append, List.map_cons, receiveCalls, hreceive, haccepted]
      exact hcalls frames
    · intro rxAccum rest
      rw [receiveLoop_accepted hbody haccepted]
      exact hloop rxAccum rest

theorem receiveLoop_start {rest : List UInt8} {later : List InboundFrame}
    (hrest : StartsWith rest (later.map InboundFrame.bytes))
    (h : AcceptedAlone cfg server tx later) (rxAccum : List UInt8) :
    receiveLoop cfg { server with rxAccum := rxAccum } rest tx =
      (true, { server with rxAccum := rest }, tx) := by
  rcases hrest with ⟨rfl, -⟩ | ⟨segment, segments, hsegments, hpre, hne⟩
  · exact receiveLoop_nil cfg _ tx
  · obtain ⟨frame, frames, rfl, rfl, -⟩ := List.map_eq_cons_iff.mp hsegments
    obtain ⟨hlen, hid, -⟩ := h
    have hbody := InboundFrame.length_body_le hlen
    rw [receiveLoop_part cfg _ hbody hpre hne, partialFrameHasInvalidPacketId_withAccum,
      partialFrame_of_packetIdAtMost hbody hpre hne hid]
    rfl

theorem length_start_le {rest : List UInt8} {later : List InboundFrame}
    (hrest : StartsWith rest (later.map InboundFrame.bytes))
    (h : AcceptedAlone cfg server tx later) : rest.length ≤ mcRxAccumSize - 512 := by
  rcases hrest with ⟨rfl, -⟩ | ⟨segment, segments, hsegments, hpre, -⟩
  · exact Nat.zero_le _
  · obtain ⟨frame, frames, rfl, rfl, -⟩ := List.map_eq_cons_iff.mp hsegments
    exact hpre.length_le.trans h.1

theorem receiveCalls_start {rest : List UInt8} {later : List InboundFrame}
    (hempty : server.rxAccum = []) (hrest : StartsWith rest (later.map InboundFrame.bytes))
    (h : AcceptedAlone cfg server tx later) {pieces : List (List UInt8)}
    (hpieces : rest ++ pieces.flatten = inboundStream later)
    (hlength : ∀ piece ∈ pieces, piece.length ≤ 512) :
    receiveCalls cfg { server with rxAccum := rest } tx pieces =
        receiveCalls cfg server tx (later.map InboundFrame.bytes) ∧
      (receiveCalls cfg server tx (later.map InboundFrame.bytes)).1 = true := by
  induction pieces generalizing server tx rest later with
  | nil =>
    rw [List.flatten_nil, List.append_nil] at hpieces
    obtain ⟨rfl, hlater⟩ := hrest.eq_nil hpieces
    rw [hlater, ← hempty]
    exact ⟨rfl, rfl⟩
  | cons piece pieces ih =>
    rw [List.flatten_cons, ← List.append_assoc] at hpieces
    have hprefix : rest ++ piece <+: (later.map InboundFrame.bytes).flatten := ⟨_, hpieces⟩
    obtain ⟨doneBytes, laterBytes, rest', hsplit, hpart, hrest'⟩ := exists_split_flatten hprefix
    obtain ⟨done, later', rfl, rfl, rfl⟩ := List.map_eq_append_iff.mp hsplit
    obtain ⟨server', tx', hempty', haccept', hcalls, hloop⟩ :=
      receiveLoop_frames done later' hempty h
    have hroom : rest.length + piece.length ≤ mcRxAccumSize := by
      have hstart := length_start_le hrest h
      have hpiece := hlength piece List.mem_cons_self
      have hsize : 512 ≤ mcRxAccumSize := by decide
      omega
    have hreceive : mcServerReceive cfg { server with rxAccum := rest } piece tx =
        (true, { server' with rxAccum := rest' }, tx') := by
      rw [mcServerReceive, accumulate_of_le hroom]
      dsimp only
      rw [hpart]
      exact (hloop rest rest').trans (receiveLoop_start hrest' haccept' rest)
    have hrest'' : rest' ++ pieces.flatten = inboundStream later' := by
      rw [hpart, inboundStream_append, List.append_assoc] at hpieces
      exact List.append_cancel_left hpieces
    rw [receiveCalls, hreceive, hcalls later']
    exact ih hempty' hrest' haccept' hrest'' fun p hp => hlength p (List.mem_cons_of_mem _ hp)

/-- However a stream of accepted frames is cut into calls of at most 512 bytes, every call
returns 1 and the server and the ring are those of one call a frame. -/
theorem receiveCalls_pieces (hempty : server.rxAccum = []) {frames : List InboundFrame}
    (h : AcceptedAlone cfg server tx frames) {pieces : List (List UInt8)}
    (hpieces : pieces.flatten = inboundStream frames)
    (hlength : ∀ piece ∈ pieces, piece.length ≤ 512) :
    receiveCalls cfg server tx pieces =
        receiveCalls cfg server tx (frames.map InboundFrame.bytes) ∧
      (receiveCalls cfg server tx pieces).1 = true := by
  obtain ⟨hsame, htrue⟩ := receiveCalls_start hempty (startsWith_nil_frames frames) h hpieces hlength
  rw [← hempty] at hsame
  exact ⟨hsame, (congrArg Prod.fst hsame).trans htrue⟩

theorem acceptedAlone_cons (hempty : server.rxAccum = []) (frames : List InboundFrame)
    (hlen : frame.bytes.length ≤ mcRxAccumSize - 512)
    (hid : frame.PacketIdAtMost server 0x7f) (haccepted : (handleFrame cfg server frame tx).1 = true)
    (h : AcceptedAlone cfg (handleFrame cfg server frame tx).2.1
      (handleFrame cfg server frame tx).2.2 frames) :
    AcceptedAlone cfg server tx (frame :: frames) := by
  have hreceive := mcServerReceive_frame cfg hempty (InboundFrame.length_body_le hlen) tx
  rw [AcceptedAlone, hreceive]
  exact ⟨hlen, hid, haccepted, h⟩

/-- A handshake for a login, the name "Bob", and a keepalive in the framing that the login
switches to. -/
def handshakeFrame : InboundFrame :=
  { lengthBytes := [7], body := [0, 47, 1, 0x61, 0x63, 0xdd, 2], isVarint := .last 7 (by decide)
    length_lengthBytes_le := by decide }

def loginStartFrame : InboundFrame :=
  { lengthBytes := [5], body := [0, 3, 0x42, 0x6f, 0x62], isVarint := .last 5 (by decide)
    length_lengthBytes_le := by decide }

def compressedKeepaliveFrame : InboundFrame :=
  { lengthBytes := [0x83, 0], body := [0, 0, 7]
    isVarint := .more 0x83 (by decide) (.last 0 (by decide))
    length_lengthBytes_le := by decide }

def handshakeDone : Bool × McServer × TxRing :=
  handleFrame compressionConfig (mcServerInit compressionConfig) handshakeFrame
    (streamStart compressionConfig 49152).2

def loginDone : Bool × McServer × TxRing :=
  handleFrame compressionConfig handshakeDone.2.1 loginStartFrame handshakeDone.2.2

theorem acceptedAlone_login :
    AcceptedAlone compressionConfig (mcServerInit compressionConfig)
      (streamStart compressionConfig 49152).2
      [handshakeFrame, loginStartFrame, compressedKeepaliveFrame] := by
  have hhandshake : handshakeFrame.PacketIdAtMost (mcServerInit compressionConfig) 0x7f :=
    ⟨handshakeFrame.body, 0, 1, ⟨rfl, by decide⟩, by decide⟩
  have hlogin : loginStartFrame.PacketIdAtMost handshakeDone.2.1 0x7f :=
    ⟨loginStartFrame.body, 0, 1, ⟨by decide +kernel, by decide⟩, by decide⟩
  have hkeepalive : compressedKeepaliveFrame.PacketIdAtMost loginDone.2.1 0x7f :=
    ⟨[0, 7], 0, 1, ⟨by decide +kernel, by decide⟩, by decide⟩
  apply acceptedAlone_cons rfl _ (by decide) hhandshake (by decide +kernel)
  apply acceptedAlone_cons (rxAccum_handleFrame _ _ _ _) _ (by decide) hlogin (by decide +kernel)
  have hempty : loginDone.2.1.rxAccum = [] :=
    (rxAccum_handleFrame _ _ _ _).trans (rxAccum_handleFrame _ _ _ _)
  exact acceptedAlone_cons hempty [] (by decide) hkeepalive (by decide +kernel) trivial

/-- Cut inside the handshake, behind the length of the login frame, and between the two
lengths of the keepalive. -/
theorem receiveCalls_pieces_login :
    (receiveCalls compressionConfig (mcServerInit compressionConfig)
      (streamStart compressionConfig 49152).2
      [[7, 0, 47], [1, 0x61, 0x63, 0xdd, 2, 5], [0, 3, 0x42, 0x6f, 0x62, 0x83], [0, 0], [0, 7]]).1 =
      true :=
  (receiveCalls_pieces rfl acceptedAlone_login (by decide) (by decide)).2

end StarrySky.Core
