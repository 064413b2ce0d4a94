import StarrySky.Core.ReceiveCalls

/-! The early rejection of a partial frame against the answer to the whole frame. The path of
whole frames has no bound on the packet id. -/

namespace StarrySky.Core
open StarrySky.Base

variable {cfg : McConfig} {server : McServer} {tx : TxRing} {frame : InboundFrame}

/-- Where calls on a part of the frame return 0, so does one call on the whole. -/
def EarlyRejectSound (cfg : McConfig) (server : McServer) (tx : TxRing) (frame : InboundFrame) :
    Prop :=
  ∀ pieces : List (List UInt8), pieces.flatten <+: frame.bytes → pieces.flatten ≠ frame.bytes →
    (receiveCalls cfg server tx pieces).1 = false →
    (mcServerReceive cfg server frame.bytes tx).1 = false

theorem mcServerReceive_oversized (hempty : server.rxAccum = [])
    (hbody : mcMaxPacketBody < frame.body.length) :
    (mcServerReceive cfg server frame.bytes tx).1 = false := by
  rw [mcServerReceive]
  cases haccum : accumulate server.rxAccum frame.bytes with
  | none => rfl
  | some rxAccum =>
    have hinvalid := classifyFrame_of_isVarint frame.isVarint frame.length_lengthBytes_le frame.body
    rw [if_pos hbody] at hinvalid
    dsimp only
    rw [accumulate_eq_some haccum, hempty, List.nil_append, receiveLoop, InboundFrame.bytes,
      hinvalid]

theorem mcServerReceive_part (hbody : frame.body.length ≤ mcMaxPacketBody)
    {done piece : List UInt8} (hpre : done ++ piece <+: frame.bytes)
    (hne : done ++ piece ≠ frame.bytes) :
    mcServerReceive cfg { server with rxAccum := done } piece tx =
      if partialFrameHasInvalidPacketId cfg server (done ++ piece) then
        (false, { server with rxAccum := [] }, tx)
      else (true, { server with rxAccum := done ++ piece }, tx) := by
  have hroom : done.length + piece.length ≤ mcRxAccumSize := by
    have hlen := hpre.length_le
    have hlength := frame.length_lengthBytes_le
    rw [List.length_append, frame.length_bytes] at hlen
    unfold mcRxAccumSize varintMaxBytes at *
    omega
  rw [mcServerReceive, accumulate_of_le hroom]
  exact receiveLoop_part cfg _ hbody hpre hne tx

theorem receiveCalls_rejects (hbody : frame.body.length ≤ mcMaxPacketBody) {done : List UInt8}
    {pieces : List (List UInt8)} (hpre : done ++ pieces.flatten <+: frame.bytes)
    (hne : done ++ pieces.flatten ≠ frame.bytes)
    (h : (receiveCalls cfg { server with rxAccum := done } tx pieces).1 = false) :
    ∃ part, part <+: frame.bytes ∧ part ≠ frame.bytes ∧
      partialFrameHasInvalidPacketId cfg server part = true := by
  induction pieces generalizing done with
  | nil => exact absurd h.symm Bool.false_ne_true
  | cons piece pieces ih =>
    rw [List.flatten_cons, ← List.append_assoc] at hpre hne
    have hpart : done ++ piece <+: frame.bytes := (List.prefix_append _ _).trans hpre
    have hpartNe : done ++ piece ≠ frame.bytes := by
      intro heq
      rw [← heq] at hpre hne
      exact hne (hpre.eq_of_length_le ((List.prefix_append _ _).length_le))
    rw [receiveCalls, mcServerReceive_part hbody hpart hpartNe] at h
    by_cases hinvalid : partialFrameHasInvalidPacketId cfg server (done ++ piece) = true
    · exact ⟨done ++ piece, hpart, hpartNe, hinvalid⟩
    · rw [if_neg hinvalid] at h
      exact ih hpre hne h

theorem packetIdInvalid_ne_nil {body : List UInt8} (h : packetIdInvalid body = true) :
    body ≠ [] := by
  rintro rfl
  exact absurd h (by decide)

theorem partialBodyInvalid_dropLast
    (hmode : server.compressionEnabled = true → cfg.protocolCompressionEnable = true)
    (hforeign : frame.HasForeignPacketId server) :
    partialBodyInvalid cfg server frame.body.dropLast = true := by
  obtain ⟨packet, packetId, used, ⟨hunwrap, hdecode⟩, hid, hused⟩ := hforeign
  have hinvalid := packetIdInvalid_dropLast hdecode hused hid
  have hbody : frame.packet.body = frame.body := rfl
  rw [partialBodyInvalid]
  rcases unwrapPacket_cases server frame.packet with ⟨hplain, hpacket⟩ | ⟨henabled, hcases⟩
  · obtain rfl : packet = frame.body := Option.some.inj (hunwrap.symm.trans hpacket)
    rw [if_neg (packetIdInvalid_ne_nil hinvalid), if_neg]
    · exact hinvalid
    · rintro ⟨-, henabled⟩
      exact absurd (hplain.symm.trans henabled) Bool.false_ne_true
  · rcases hcases with ⟨hnone, -⟩ | ⟨dataUsed, hdataLen, hpacket⟩
    · exact absurd (hunwrap.symm.trans hnone) (by simp)
    rw [hbody] at hdataLen hpacket
    obtain rfl : packet = frame.body.drop dataUsed :=
      Option.some.inj (hunwrap.symm.trans hpacket)
    have hshort : dataUsed < frame.body.dropLast.length := by
      have hlen := List.length_pos_of_ne_nil (packetIdInvalid_ne_nil hinvalid)
      rw [List.length_dropLast, List.length_drop] at hlen
      rw [List.length_dropLast]
      omega
    have hne : frame.body ≠ [] := by
      intro hnil
      rw [hnil] at hshort
      exact absurd hshort (Nat.not_lt_zero _)
    have hdrop : frame.body.dropLast.drop dataUsed = (frame.body.drop dataUsed).dropLast := by
      rw [List.dropLast_eq_take, List.dropLast_eq_take, List.drop_take, List.length_drop,
        Nat.sub_right_comm]
    rw [← List.dropLast_append_getLast hne] at hdataLen
    rw [if_neg (List.ne_nil_of_length_pos (Nat.zero_lt_of_lt hshort)),
      if_pos ⟨hmode henabled, henabled⟩, mcVarintDecode_of_append hdataLen hshort.le]
    dsimp only
    rw [if_neg (not_not_intro rfl), if_neg (Nat.not_le.mpr hshort), hdrop]
    exact hinvalid

theorem withAccum_nil (hempty : server.rxAccum = []) :
    ({ server with rxAccum := [] } : McServer) = server := by
  rw [← hempty]

theorem not_earlyRejectSound (hempty : server.rxAccum = [])
    (hmode : server.compressionEnabled = true → cfg.protocolCompressionEnable = true)
    (hbody : frame.body.length ≤ mcMaxPacketBody) (hforeign : frame.HasForeignPacketId server) :
    ¬ EarlyRejectSound cfg server tx frame := by
  intro hsound
  have hinvalid := partialBodyInvalid_dropLast hmode hforeign
  have hne : frame.body ≠ [] := by
    intro hnil
    rw [hnil] at hinvalid
    exact absurd hinvalid Bool.false_ne_true
  obtain ⟨packet, packetId, used, hid, hforeignId, -⟩ := hforeign
  have hbytes : frame.lengthBytes ++ frame.body.dropLast = frame.bytes.dropLast :=
    (List.dropLast_append_of_ne_nil hne).symm
  have hpre : [frame.bytes.dropLast].flatten <+: frame.bytes := by
    rw [List.flatten_singleton]
    exact List.dropLast_prefix _
  have hpart : [frame.bytes.dropLast].flatten ≠ frame.bytes := by
    rw [List.flatten_singleton]
    intro heq
    have hlen := congrArg List.length heq
    have hpos := List.length_pos_of_ne_nil frame.bytes_ne_nil
    rw [List.length_dropLast] at hlen
    omega
  have hreject : (receiveCalls cfg server tx [frame.bytes.dropLast]).1 = false := by
    rw [List.flatten_singleton] at hpre hpart
    have hcheck : partialFrameHasInvalidPacketId cfg server ([] ++ frame.bytes.dropLast) = true := by
      rw [List.nil_append, ← hbytes, partialFrameHasInvalidPacketId_body cfg server hbody, hinvalid]
    have hreceive := @mcServerReceive_part cfg server tx frame hbody [] _ hpre hpart
    rw [if_pos hcheck, withAccum_nil hempty] at hreceive
    rw [receiveCalls, hreceive]
    rfl
  have hwhole : (mcServerReceive cfg server frame.bytes tx).1 = true := by
    rw [mcServerReceive_frame cfg hempty hbody tx, handleFrame_foreign hid hforeignId]
  exact absurd (hwhole.symm.trans (hsound _ hpre hpart hreject)) (by decide)

theorem earlyRejectSound_of_not (hempty : server.rxAccum = [])
    (h : ¬ (frame.body.length ≤ mcMaxPacketBody ∧ frame.HasForeignPacketId server)) :
    EarlyRejectSound cfg server tx frame := by
  intro pieces hpre hne hreject
  by_cases hbody : frame.body.length ≤ mcMaxPacketBody
  case neg => exact mcServerReceive_oversized hempty (Nat.lt_of_not_le hbody)
  rw [← withAccum_nil hempty] at hreject
  obtain ⟨part, hpart, hpartNe, hinvalid⟩ := @receiveCalls_rejects cfg server tx frame hbody []
    pieces hpre hne hreject
  rcases InboundFrame.part_cases hpart hpartNe with ⟨hmore, -⟩ | ⟨bodyPart, rfl, hbodyPart, hbodyNe⟩
  · rw [partialFrameHasInvalidPacketId_of_all_more cfg server hmore] at hinvalid
    exact absurd hinvalid Bool.false_ne_true
  · rw [partialFrameHasInvalidPacketId_body cfg server hbody] at hinvalid
    rcases partialBodyInvalid_cases hbodyPart hbodyNe hinvalid with hnone | hforeign
    · rw [mcServerReceive_frame cfg hempty hbody tx, handleFrame_noPacketId hnone]
    · exact absurd ⟨hbody, hforeign⟩ h

/-! The framing mode of a reachable state is one that the build has. -/

theorem compressionEnabled_packetStep (hcfg : cfg.protocolCompressionEnable = false)
    {result : Bool × McServer × TxRing} (hstep : PacketStep cfg server tx result)
    (h : server.compressionEnabled = false) : result.2.1.compressionEnabled = false := by
  cases hstep with
  | reject => exact h
  | ignore => exact h
  | acceptHandshake hstate next hnext => rfl
  | badNextState hstate => rfl
  | answerStatus hstate id hid rest hfits => exact h
  | loginCompressed hcompression => exact absurd (hcfg.symm.trans hcompression) Bool.false_ne_true
  | loginPlain hplain hstate text htext hname success hsuccess hfits => exact h
  | keepalive hstate => exact h
  | movement hstate player onGround => exact h
  | chat hstate message result hresult packets hpackets hbodies hfits =>
    obtain ⟨action, chat⟩ := result
    cases action <;> exact h

theorem compressionEnabled_serverStep (hcfg : cfg.protocolCompressionEnable = false)
    (op : ServerOp) (h : server.compressionEnabled = false) :
    (serverStep cfg server op).compressionEnabled = false := by
  cases op with
  | init => rfl
  | receive bytes tx =>
    exact mcServerReceive_preserves (P := fun server _ => server.compressionEnabled = false)
      (fun server body tx h =>
        compressionEnabled_packetStep hcfg (handlePacket_step cfg server body tx) h)
      (fun _ _ _ h => h) bytes h
  | tickAt nowTicks tx =>
    apply mcServerTickAt_preserves (P := fun server _ => server.compressionEnabled = false)
      (h := h)
    case hticks => exact fun _ _ _ h => h
    case hpacket =>
      intro server _ frame h _ _ _ _ _
      unfold afterBootstrapPacket
      split_ifs <;> exact h
    case hdone => exact fun _ _ h _ _ => h
    case hkeepalive => exact fun _ _ _ h _ _ _ _ => h
  | takeTxReset => exact h

theorem compressionEnabled_serverRun (cfg : McConfig) (ops : List ServerOp)
    (h : (serverRun cfg (mcServerInit cfg) ops).compressionEnabled = true) :
    cfg.protocolCompressionEnable = true := by
  by_contra hcfg
  have hplain := serverRun_preserves (P := fun server => server.compressionEnabled = false)
    (fun server op h => compressionEnabled_serverStep (Bool.eq_false_of_not_eq_true hcfg) op h)
    ops (show (mcServerInit cfg).compressionEnabled = false from rfl)
  exact absurd (hplain.symm.trans h) Bool.false_ne_true

/-- The early rejection is sound for all frames but those with a foreign id. -/
theorem earlyRejectSound_iff (cfg : McConfig) (ops : List ServerOp) {server : McServer}
    (hserver : server = serverRun cfg (mcServerInit cfg) ops) (hempty : server.rxAccum = [])
    (tx : TxRing) (frame : InboundFrame) :
    EarlyRejectSound cfg server tx frame ↔
      ¬ (frame.body.length ≤ mcMaxPacketBody ∧ frame.HasForeignPacketId server) := by
  constructor
  · rintro hsound ⟨hbody, hforeign⟩
    have hmode : server.compressionEnabled = true → cfg.protocolCompressionEnable = true := by
      rw [hserver]
      exact compressionEnabled_serverRun cfg ops
    exact not_earlyRejectSound hempty hmode hbody hforeign hsound
  · exact earlyRejectSound_of_not hempty

/-- A packet with the id 0x80 and one byte behind it. -/
def foreignFrame : InboundFrame :=
  { lengthBytes := [3], body := [0x80, 0x01, 0x00], isVarint := .last 3 (by decide)
    length_lengthBytes_le := by decide }

theorem earlyRejectSound_iff_init :
    EarlyRejectSound compressionConfig (mcServerInit compressionConfig)
        (streamStart compressionConfig 49152).2 foreignFrame ↔
      ¬ (foreignFrame.body.length ≤ mcMaxPacketBody ∧
        foreignFrame.HasForeignPacketId (mcServerInit compressionConfig)) :=
  earlyRejectSound_iff compressionConfig [] rfl rfl _ foreignFrame

/-- The fresh server rejects the first three bytes of the frame and accepts the frame. -/
theorem earlyRejectSound_foreignFrame :
    (receiveCalls compressionConfig (mcServerInit compressionConfig)
        (streamStart compressionConfig 49152).2 [[3, 0x80, 0x01]]).1 = false ∧
      (mcServerReceive compressionConfig (mcServerInit compressionConfig) foreignFrame.bytes
        (streamStart compressionConfig 49152).2).1 = true ∧
      ¬ EarlyRejectSound compressionConfig (mcServerInit compressionConfig)
        (streamStart compressionConfig 49152).2 foreignFrame := by
  have hempty : (mcServerInit compressionConfig).rxAccum = [] := rfl
  have hbody : foreignFrame.body.length ≤ mcMaxPacketBody := by decide
  have hpre : [] ++ [3, 0x80, 0x01] <+: foreignFrame.bytes := ⟨[0x00], rfl⟩
  have hreject : (receiveCalls compressionConfig (mcServerInit compressionConfig)
      (streamStart compressionConfig 49152).2 [[3, 0x80, 0x01]]).1 = false := by
    have hreceive := @mcServerReceive_part compressionConfig (mcServerInit compressionConfig)
      (streamStart compressionConfig 49152).2 foreignFrame hbody [] [3, 0x80, 0x01] hpre (by decide)
    rw [if_pos (by decide), withAccum_nil hempty] at hreceive
    rw [receiveCalls, hreceive]
    rfl
  have hwhole : (mcServerReceive compressionConfig (mcServerInit compressionConfig)
      foreignFrame.bytes (streamStart compressionConfig 49152).2).1 = true := by
    rw [mcServerReceive_frame _ hempty hbody]
    decide +kernel
  refine ⟨hreject, hwhole, fun hsound => ?_⟩
  exact absurd (hwhole.symm.trans (hsound [[3, 0x80, 0x01]] hpre (by decide) hreject))
    (by decide)

end StarrySky.Core
